import Mathlib.Tactic.Common

/-!
# Text as bytes and as code units

UTF-16, and a decoder that takes UTF-8 in as it arrives: what is not well formed
becomes a replacement character, and a byte order mark at the beginning is
dropped. However an encoded text is cut into chunks, what comes out is the text.
-/

namespace Utf

/-- The UTF-16 code units of a scalar value. -/
def units16 (n : Nat) : List UInt16 :=
  if n < 0x10000 then [.ofNat n]
  else [.ofNat (0xD800 + (n - 0x10000) / 0x400), .ofNat (0xDC00 + (n - 0x10000) % 0x400)]

/-- A text in UTF-16. -/
def utf16 (text : List Char) : List UInt16 := text.flatMap fun c => units16 c.toNat

/-- A text in UTF-8. -/
def utf8 (text : List Char) : List UInt8 := text.flatMap String.utf8EncodeChar

theorem utf16_append (before after : List Char) :
    utf16 (before ++ after) = utf16 before ++ utf16 after := List.flatMap_append

theorem utf8_append (before after : List Char) :
    utf8 (before ++ after) = utf8 before ++ utf8 after := List.flatMap_append

/-- A unit below the surrogates is a character of its own. -/
theorem mem_of_mem_utf16 {text : List Char} {c : Char} (hc : c.toNat < 0xD800)
    (h : UInt16.ofNat c.toNat ∈ utf16 text) : c ∈ text := by
  obtain ⟨d, hd, hmem⟩ := List.mem_flatMap.mp h
  have hlt : d.toNat < 0x110000 := by
    rcases d.valid with h | ⟨-, h⟩
    · exact Nat.lt_trans h (by decide)
    · exact h
  have hunit : (UInt16.ofNat c.toNat).toNat = c.toNat := by
    rw [UInt16.toNat_ofNat', Nat.mod_eq_of_lt (by omega)]
  have hnat : ∀ n < 65536, UInt16.ofNat c.toNat = UInt16.ofNat n → c.toNat = n := by
    intro n hn heq
    rw [← hunit, heq, UInt16.toNat_ofNat', Nat.mod_eq_of_lt hn]
  unfold units16 at hmem
  split at hmem
  next hsmall =>
    have heq := hnat _ hsmall (List.mem_singleton.mp hmem)
    rwa [← Char.ofNat_toNat c, heq, Char.ofNat_toNat]
  next hbig =>
    -- The surrogates are above it.
    rcases List.mem_cons.mp hmem with heq | htail
    · have hhigh := hnat _ (by omega) heq
      omega
    · have hlow := hnat _ (by omega) (List.mem_singleton.mp htail)
      omega

/-! ## The decoder -/

/-- The sequence a decoder is in, and whether anything came out of it yet. -/
structure Decoder where
  codePoint : Nat := 0
  /-- The continuation bytes still to come, and the bounds of the next. -/
  needed : Nat := 0
  lower : Nat := 0x80
  upper : Nat := 0xBF
  started : Bool := false
  deriving DecidableEq, Repr

namespace Decoder

/-- What comes out for a code point: a byte order mark is dropped at the beginning. -/
def emit (d : Decoder) (codePoint : Nat) : List UInt16 :=
  if d.started = false ∧ codePoint = 0xFEFF then [] else units16 codePoint

/-- A byte that begins a sequence. -/
def lead (d : Decoder) (byte : Nat) : List UInt16 × Decoder :=
  if byte ≤ 0x7F then (d.emit byte, { started := true })
  else if 0xC2 ≤ byte ∧ byte ≤ 0xDF then
    ([], { codePoint := byte % 0x20, needed := 1, started := d.started })
  else if 0xE0 ≤ byte ∧ byte ≤ 0xEF then
    ([], { codePoint := byte % 0x10, needed := 2
           lower := if byte = 0xE0 then 0xA0 else 0x80
           upper := if byte = 0xED then 0x9F else 0xBF
           started := d.started })
  else if 0xF0 ≤ byte ∧ byte ≤ 0xF4 then
    ([], { codePoint := byte % 0x08, needed := 3
           lower := if byte = 0xF0 then 0x90 else 0x80
           upper := if byte = 0xF4 then 0x8F else 0xBF
           started := d.started })
  else (d.emit 0xFFFD, { started := true })

/-- One byte. -/
def step (d : Decoder) (byte : Nat) : List UInt16 × Decoder :=
  if d.needed = 0 then d.lead byte
  else if d.lower ≤ byte ∧ byte ≤ d.upper then
    let codePoint := d.codePoint * 0x40 + byte % 0x40
    if d.needed = 1 then (d.emit codePoint, { started := true })
    else ([], { codePoint, needed := d.needed - 1, started := d.started })
  else
    -- The sequence is given up, and the byte begins another.
    let (out, next) := lead { started := true } byte
    (d.emit 0xFFFD ++ out, next)

/-- A chunk of a stream. -/
def decode (d : Decoder) : List UInt8 → List UInt16 × Decoder
  | [] => ([], d)
  | byte :: bytes =>
    let (out, next) := d.step byte.toNat
    let (rest, last) := next.decode bytes
    (out ++ rest, last)

/-- The chunks of a stream, one after another. -/
def decodeAll (d : Decoder) : List (List UInt8) → List (List UInt16)
  | [] => []
  | chunk :: chunks => (d.decode chunk).1 :: (d.decode chunk).2.decodeAll chunks

variable {d : Decoder}

theorem decode_append (before after : List UInt8) :
    d.decode (before ++ after) =
      ((d.decode before).1 ++ ((d.decode before).2.decode after).1,
        ((d.decode before).2.decode after).2) := by
  induction before generalizing d with
  | nil => rfl
  | cons byte before ih => simp only [List.cons_append, decode, ih, List.append_assoc]

/-- **The chunks make no difference** to what comes out. -/
theorem flatten_decodeAll (chunks : List (List UInt8)) :
    (d.decodeAll chunks).flatten = (d.decode chunks.flatten).1 := by
  induction chunks generalizing d with
  | nil => rfl
  | cons chunk chunks ih => rw [decodeAll, List.flatten_cons, List.flatten_cons, decode_append, ih]

/-! ## What is well formed -/

/-- A continuation byte that is within bounds. -/
theorem step_within {byte : Nat} (hneeded : d.needed ≠ 0) (hlower : d.lower ≤ byte)
    (hupper : byte ≤ d.upper) :
    d.step byte = if d.needed = 1 then (d.emit (d.codePoint * 0x40 + byte % 0x40), { started := true })
      else ([], { codePoint := d.codePoint * 0x40 + byte % 0x40, needed := d.needed - 1
                  started := d.started }) := by
  rw [step, if_neg hneeded, if_pos ⟨hlower, hupper⟩]

theorem toNat_ofNat {n : Nat} (h : n < 256) : (UInt8.ofNat n).toNat = n := by
  rw [UInt8.toNat_ofNat', Nat.mod_eq_of_lt h]

/-- A sequence ends with its last byte. -/
theorem step_last {codePoint byte lower upper : Nat} {started : Bool} (hlower : lower ≤ byte)
    (hupper : byte ≤ upper) :
    step { codePoint, needed := 1, lower, upper, started } byte =
      (emit { started } (codePoint * 0x40 + byte % 0x40), { started := true }) :=
  step_within Nat.one_ne_zero hlower hupper

theorem step_next {codePoint byte needed lower upper : Nat} {started : Bool}
    (hneeded : 1 < needed) (hlower : lower ≤ byte) (hupper : byte ≤ upper) :
    step { codePoint, needed, lower, upper, started } byte =
      ([], { codePoint := codePoint * 0x40 + byte % 0x40, needed := needed - 1, started }) := by
  rw [step_within (by show needed ≠ 0; omega) hlower hupper, if_neg (by show needed ≠ 1; omega)]

section

variable {v : Nat} {started : Bool}

theorem decode_one (h : v ≤ 0x7F) :
    decode { started } [UInt8.ofNat v] = (emit { started } v, { started := true }) := by
  have hlead : step { started } v = (emit { started } v, { started := true }) := by
    rw [step, if_pos rfl, lead, if_pos h]
  simp only [decode, toNat_ofNat (show v < 256 by omega), hlead, List.append_nil]

theorem decode_two (h : 0x7F < v) (h' : v ≤ 0x7FF) :
    decode { started } [UInt8.ofNat (v / 64 % 0x20 + 0xC0), UInt8.ofNat (v % 0x40 + 0x80)] =
      (emit { started } v, { started := true }) := by
  have hlead : step { started } (v / 64 % 0x20 + 0xC0) =
      ([], { codePoint := v / 64, needed := 1, started }) := by
    rw [step, if_pos rfl, lead, if_neg (by omega), if_pos (by omega),
      show (v / 64 % 0x20 + 0xC0) % 0x20 = v / 64 by omega]
  have hlast : step { codePoint := v / 64, needed := 1, started } (v % 0x40 + 0x80) =
      (emit { started } v, { started := true }) := by
    rw [step_last (by omega) (by omega),
      show v / 64 * 0x40 + (v % 0x40 + 0x80) % 0x40 = v by omega]
  simp only [decode, toNat_ofNat (show v / 64 % 0x20 + 0xC0 < 256 by omega),
    toNat_ofNat (show v % 0x40 + 0x80 < 256 by omega), hlead, hlast, List.nil_append,
    List.append_nil]

theorem decode_three (h : 0x7FF < v) (h' : v ≤ 0xFFFF) (hscalar : v < 0xD800 ∨ 0xDFFF < v) :
    decode { started } [UInt8.ofNat (v / 4096 % 0x10 + 0xE0),
      UInt8.ofNat (v / 64 % 0x40 + 0x80), UInt8.ofNat (v % 0x40 + 0x80)] =
      (emit { started } v, { started := true }) := by
  have hlead : step { started } (v / 4096 % 0x10 + 0xE0) =
      ([], { codePoint := v / 4096, needed := 2
             lower := if v / 4096 = 0 then 0xA0 else 0x80
             upper := if v / 4096 = 0xD then 0x9F else 0xBF
             started }) := by
    rw [step, if_pos rfl, lead, if_neg (by omega), if_neg (by omega), if_pos (by omega),
      show (v / 4096 % 0x10 + 0xE0) % 0x10 = v / 4096 by omega]
    simp only [show v / 4096 % 0x10 + 0xE0 = 0xE0 ↔ v / 4096 = 0 by omega,
      show v / 4096 % 0x10 + 0xE0 = 0xED ↔ v / 4096 = 0xD by omega]
  have hnext : step { codePoint := v / 4096, needed := 2
                      lower := if v / 4096 = 0 then 0xA0 else 0x80
                      upper := if v / 4096 = 0xD then 0x9F else 0xBF
                      started } (v / 64 % 0x40 + 0x80) =
      ([], { codePoint := v / 64, needed := 1, started }) := by
    -- The bounds keep out what is too long, and the surrogates.
    rw [step_next (by omega) (by split <;> omega) (by split <;> omega),
      show v / 4096 * 0x40 + (v / 64 % 0x40 + 0x80) % 0x40 = v / 64 by omega]
  have hlast : step { codePoint := v / 64, needed := 1, started } (v % 0x40 + 0x80) =
      (emit { started } v, { started := true }) := by
    rw [step_last (by omega) (by omega),
      show v / 64 * 0x40 + (v % 0x40 + 0x80) % 0x40 = v by omega]
  simp only [decode, toNat_ofNat (show v / 4096 % 0x10 + 0xE0 < 256 by omega),
    toNat_ofNat (show v / 64 % 0x40 + 0x80 < 256 by omega),
    toNat_ofNat (show v % 0x40 + 0x80 < 256 by omega), hlead, hnext, hlast, List.nil_append,
    List.append_nil]

theorem decode_four (h : 0xFFFF < v) (h' : v < 0x110000) :
    decode { started } [UInt8.ofNat (v / 262144 % 0x08 + 0xF0),
      UInt8.ofNat (v / 4096 % 0x40 + 0x80), UInt8.ofNat (v / 64 % 0x40 + 0x80),
      UInt8.ofNat (v % 0x40 + 0x80)] = (emit { started } v, { started := true }) := by
  have hlead : step { started } (v / 262144 % 0x08 + 0xF0) =
      ([], { codePoint := v / 262144, needed := 3
             lower := if v / 262144 = 0 then 0x90 else 0x80
             upper := if v / 262144 = 4 then 0x8F else 0xBF
             started }) := by
    rw [step, if_pos rfl, lead, if_neg (by omega), if_neg (by omega), if_neg (by omega),
      if_pos (by omega), show (v / 262144 % 0x08 + 0xF0) % 0x08 = v / 262144 by omega]
    simp only [show v / 262144 % 0x08 + 0xF0 = 0xF0 ↔ v / 262144 = 0 by omega,
      show v / 262144 % 0x08 + 0xF0 = 0xF4 ↔ v / 262144 = 4 by omega]
  have hsecond : step { codePoint := v / 262144, needed := 3
                        lower := if v / 262144 = 0 then 0x90 else 0x80
                        upper := if v / 262144 = 4 then 0x8F else 0xBF
                        started } (v / 4096 % 0x40 + 0x80) =
      ([], { codePoint := v / 4096, needed := 2, started }) := by
    rw [step_next (by omega) (by split <;> omega) (by split <;> omega),
      show v / 262144 * 0x40 + (v / 4096 % 0x40 + 0x80) % 0x40 = v / 4096 by omega]
  have hthird : step { codePoint := v / 4096, needed := 2, started } (v / 64 % 0x40 + 0x80) =
      ([], { codePoint := v / 64, needed := 1, started }) := by
    rw [step_next (by omega) (by omega) (by omega),
      show v / 4096 * 0x40 + (v / 64 % 0x40 + 0x80) % 0x40 = v / 64 by omega]
  have hlast : step { codePoint := v / 64, needed := 1, started } (v % 0x40 + 0x80) =
      (emit { started } v, { started := true }) := by
    rw [step_last (by omega) (by omega),
      show v / 64 * 0x40 + (v % 0x40 + 0x80) % 0x40 = v by omega]
  simp only [decode, toNat_ofNat (show v / 262144 % 0x08 + 0xF0 < 256 by omega),
    toNat_ofNat (show v / 4096 % 0x40 + 0x80 < 256 by omega),
    toNat_ofNat (show v / 64 % 0x40 + 0x80 < 256 by omega),
    toNat_ofNat (show v % 0x40 + 0x80 < 256 by omega), hlead, hsecond, hthird, hlast,
    List.nil_append, List.append_nil]

end

/-- **The bytes of a character** decode to its code units. -/
theorem decode_char (c : Char) (started : Bool) :
    decode { started } (String.utf8EncodeChar c) =
      (emit { started } c.toNat, { started := true }) := by
  have hscalar : c.toNat < 0xD800 ∨ (0xDFFF < c.toNat ∧ c.toNat < 0x110000) := c.valid
  have hval : c.val.toNat = c.toNat := rfl
  unfold String.utf8EncodeChar
  simp only [hval]
  split
  next h => exact decode_one h
  next h =>
    split
    next h' => exact decode_two (by omega) h'
    next h' =>
      split
      next h'' => exact decode_three (by omega) h'' (hscalar.imp_right And.left)
      next h'' => exact decode_four (by omega) (by omega)

/-- What is decoded behind the beginning is the text. -/
theorem decode_utf8 (text : List Char) :
    decode { started := true } (utf8 text) = (utf16 text, { started := true }) := by
  induction text with
  | nil => rfl
  | cons c text ih =>
    have hemit : emit { started := true } c.toNat = units16 c.toNat := if_neg nofun
    rw [utf8, List.flatMap_cons, decode_append, decode_char, hemit]
    show (_ ++ (decode { started := true } (utf8 text)).1,
      (decode { started := true } (utf8 text)).2) = _
    rw [ih]
    rfl

/-- **However it is cut**, a text that does not begin with a byte order mark is what comes out. -/
theorem decodeAll_utf8 {text : List Char} (hmark : text.head? ≠ some (Char.ofNat 0xFEFF))
    {chunks : List (List UInt8)} (hchunks : chunks.flatten = utf8 text) :
    (decodeAll {} chunks).flatten = utf16 text := by
  rw [flatten_decodeAll, hchunks]
  cases text with
  | nil => rfl
  | cons c text =>
    have hne : c.toNat ≠ 0xFEFF := by
      intro h
      refine hmark (congrArg some ?_)
      rw [← h, Char.ofNat_toNat]
    have hemit : emit {} c.toNat = units16 c.toNat := if_neg fun h => hne h.2
    rw [utf8, List.flatMap_cons, decode_append, decode_char, hemit]
    show units16 c.toNat ++ (decode { started := true } (utf8 text)).1 = _
    rw [decode_utf8]
    rfl

end Decoder

end Utf
