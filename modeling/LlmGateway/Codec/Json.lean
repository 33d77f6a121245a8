import Mathlib.Tactic.Common

/-!
# JSON texts that say which value they write

The compact form of a serializer that keeps to ASCII, over any type of floats.
A writer is legible when what it wrote can be told from whatever follows it, and
legibility is built up from strings and numerals to whole values. So a value is
determined by its text.
-/

namespace Json

variable {α : Type}

/-! ## Legible writers -/

/-- What `f` wrote can be told from what follows, if that satisfies `Ends`. -/
def Legible (Ends : List Char → Prop) (f : α → List Char) : Prop :=
  ∀ ⦃a b : α⦄ ⦃xs ys : List Char⦄, Ends xs → Ends ys → f a ++ xs = f b ++ ys → a = b ∧ xs = ys

/-- A legible writer is injective, if nothing at all may follow. -/
theorem Legible.injective {Ends : List Char → Prop} {f : α → List Char}
    (hf : Legible Ends f) (hnil : Ends []) : Function.Injective f := by
  intro a b h
  have htexts : f a ++ [] = f b ++ [] := by rw [h]
  exact (hf hnil hnil htexts).1

/-! ## Strings -/

/-- A character in four hexadecimal digits. -/
def hex4 (n : Nat) : List Char :=
  [(n / 4096 % 16).digitChar, (n / 256 % 16).digitChar, (n / 16 % 16).digitChar,
    (n % 16).digitChar]

/-- The text of one character within a string. -/
def escape (c : Char) : List Char :=
  if c = '\\' then ['\\', '\\']
  else if c = '"' then ['\\', '"']
  else if c = '\n' then ['\\', 'n']
  else if c = '\r' then ['\\', 'r']
  else if c = '\t' then ['\\', 't']
  else if c = Char.ofNat 12 then ['\\', 'f']
  else if c = Char.ofNat 8 then ['\\', 'b']
  else if 32 ≤ c.toNat ∧ c.toNat ≤ 126 then [c]
  else if c.toNat < 0x10000 then '\\' :: 'u' :: hex4 c.toNat
  else
    -- a surrogate pair
    '\\' :: 'u' :: hex4 (0xd800 + (c.toNat - 0x10000) / 1024)
      ++ '\\' :: 'u' :: hex4 (0xdc00 + (c.toNat - 0x10000) % 1024)

def writeString (s : String) : List Char := '"' :: s.toList.flatMap escape ++ ['"']

/-- The value of a lower-case hexadecimal digit. -/
def hexVal (c : Char) : Nat :=
  if c.toNat ≤ 57 then c.toNat - 48 else c.toNat - 87

def hexVal4 (a b c d : Char) : Nat :=
  ((hexVal a * 16 + hexVal b) * 16 + hexVal c) * 16 + hexVal d

/-- Read one character of a string's text back. -/
def unescape : List Char → Option (Char × List Char)
  | '\\' :: 'u' :: a :: b :: c :: d :: rest =>
    let n := hexVal4 a b c d
    if 0xd800 ≤ n ∧ n < 0xdc00 then
      match rest with
      | '\\' :: 'u' :: a' :: b' :: c' :: d' :: rest' =>
        some (Char.ofNat (0x10000 + (n - 0xd800) * 1024 + (hexVal4 a' b' c' d' - 0xdc00)), rest')
      | _ => none
    else some (Char.ofNat n, rest)
  | '\\' :: 'n' :: rest => some ('\n', rest)
  | '\\' :: 'r' :: rest => some ('\r', rest)
  | '\\' :: 't' :: rest => some ('\t', rest)
  | '\\' :: 'f' :: rest => some (Char.ofNat 12, rest)
  | '\\' :: 'b' :: rest => some (Char.ofNat 8, rest)
  | '\\' :: c :: rest => some (c, rest)
  | '"' :: _ => none
  | c :: rest => some (c, rest)
  | [] => none

theorem hexVal_digitChar : ∀ d < 16, hexVal d.digitChar = d := by decide

theorem hexVal4_hex4 {n : Nat} (h : n < 0x10000) :
    hexVal4 (n / 4096 % 16).digitChar (n / 256 % 16).digitChar (n / 16 % 16).digitChar
      (n % 16).digitChar = n := by
  unfold hexVal4
  rw [hexVal_digitChar _ (Nat.mod_lt _ (by omega)), hexVal_digitChar _ (Nat.mod_lt _ (by omega)),
    hexVal_digitChar _ (Nat.mod_lt _ (by omega)), hexVal_digitChar _ (Nat.mod_lt _ (by omega))]
  omega

theorem unescape_short {n : Nat} (hn : n < 0x10000) (hsurrogate : ¬ (0xd800 ≤ n ∧ n < 0xdc00))
    (rest : List Char) :
    unescape ('\\' :: 'u' :: hex4 n ++ rest) = some (Char.ofNat n, rest) := by
  simp only [hex4, List.cons_append, List.nil_append, unescape, hexVal4_hex4 hn]
  rw [if_neg hsurrogate]

theorem unescape_long {m : Nat} (hm : m < 0x100000) (rest : List Char) :
    unescape ('\\' :: 'u' :: hex4 (0xd800 + m / 1024)
        ++ ('\\' :: 'u' :: hex4 (0xdc00 + m % 1024) ++ rest))
      = some (Char.ofNat (0x10000 + m), rest) := by
  have hhigh : 0xd800 + m / 1024 < 0x10000 := by omega
  have hlow : 0xdc00 + m % 1024 < 0x10000 := by omega
  simp only [hex4, List.cons_append, List.nil_append, unescape, hexVal4_hex4 hhigh,
    hexVal4_hex4 hlow]
  rw [if_pos (by omega)]
  have hback : 0x10000 + (0xd800 + m / 1024 - 0xd800) * 1024 + (0xdc00 + m % 1024 - 0xdc00)
      = 0x10000 + m := by omega
  rw [hback]

theorem unescape_plain {c : Char} (hslash : c ≠ '\\') (hquote : c ≠ '"') (rest : List Char) :
    unescape (c :: rest) = some (c, rest) := by
  -- Every line of the reader but the last is for a backslash or a quote.
  rw [unescape] <;> intros <;> contradiction

/-- **A character reads back from its text.** -/
theorem unescape_escape (c : Char) (rest : List Char) :
    unescape (escape c ++ rest) = some (c, rest) := by
  have hvalid : c.toNat < 0xd800 ∨ 0xdfff < c.toNat ∧ c.toNat < 0x110000 := c.valid
  unfold escape
  split
  · next h => subst h; rfl
  split
  · next h => subst h; rfl
  split
  · next h => subst h; rfl
  split
  · next h => subst h; rfl
  split
  · next h => subst h; rfl
  split
  · next h => subst h; rfl
  split
  · next h => subst h; rfl
  split
  · next hslash hquote _ _ _ _ _ _ => exact unescape_plain hslash hquote rest
  split
  · next h =>
    rw [unescape_short h (by omega), Char.ofNat_toNat]
  · next h =>
    rw [List.append_assoc, unescape_long (by omega)]
    have hback : 0x10000 + (c.toNat - 0x10000) = c.toNat := by omega
    rw [hback, Char.ofNat_toNat]

/-- A string's text ends where its quote stands. -/
theorem flatMap_escape_inj : ∀ (cs ds : List Char) {xs ys : List Char},
    cs.flatMap escape ++ '"' :: xs = ds.flatMap escape ++ '"' :: ys → cs = ds ∧ xs = ys
  | [], [], _, _, h => by simpa using h
  | [], d :: ds, xs, ys, h => by
    have hread := congrArg unescape h
    rw [List.flatMap_cons, List.append_assoc, unescape_escape] at hread
    cases hread
  | c :: cs, [], xs, ys, h => by
    have hread := congrArg unescape h
    rw [List.flatMap_cons, List.append_assoc, unescape_escape] at hread
    cases hread
  | c :: cs, d :: ds, xs, ys, h => by
    have hread := congrArg unescape h
    rw [List.flatMap_cons, List.flatMap_cons, List.append_assoc, List.append_assoc,
      unescape_escape, unescape_escape] at hread
    obtain ⟨rfl, hrest⟩ := Prod.mk.inj (Option.some.inj hread)
    obtain ⟨rfl, hafter⟩ := flatMap_escape_inj cs ds hrest
    exact ⟨rfl, hafter⟩

/-- **Strings are legible**, whatever follows. -/
theorem legible_writeString : Legible (fun _ => True) writeString := by
  intro s t xs ys _ _ h
  simp only [writeString, List.cons_append, List.append_assoc, List.nil_append,
    List.cons.injEq, true_and] at h
  obtain ⟨hchars, hrest⟩ := flatMap_escape_inj _ _ h
  exact ⟨String.toList_inj.mp hchars, hrest⟩

/-! ## Numerals -/

def isNumeral (c : Char) : Bool :=
  c.isDigit || c == '-' || c == '+' || c == '.' || c == 'e'

/-- The text does not go on as a numeral would. -/
def Halts (xs : List Char) : Prop := ∀ c ∈ xs.head?, isNumeral c = false

theorem halts_nil : Halts [] := by
  intro c hc
  cases hc

theorem halts_cons {c : Char} {xs : List Char} (hc : isNumeral c = false) : Halts (c :: xs) := by
  intro d hd
  obtain rfl := Option.some.inj hd
  exact hc

/-- Two runs of numeral characters that both end are the same run. -/
theorem numeral_inj : ∀ {cs ds xs ys : List Char}, (∀ c ∈ cs, isNumeral c = true) →
    (∀ c ∈ ds, isNumeral c = true) → Halts xs → Halts ys → cs ++ xs = ds ++ ys → cs = ds ∧ xs = ys
  | [], [], _, _, _, _, _, _, h => ⟨rfl, h⟩
  | [], d :: ds, xs, ys, _, hds, hxs, _, h => by
    have hhead := hxs d (by rw [List.nil_append] at h; rw [h]; rfl)
    rw [hds d List.mem_cons_self] at hhead
    cases hhead
  | c :: cs, [], xs, ys, hcs, _, _, hys, h => by
    have hhead := hys c (by rw [List.nil_append] at h; rw [← h]; rfl)
    rw [hcs c List.mem_cons_self] at hhead
    cases hhead
  | c :: cs, d :: ds, xs, ys, hcs, hds, hxs, hys, h => by
    rw [List.cons_append, List.cons_append, List.cons.injEq] at h
    obtain ⟨rfl, hrest⟩ := h
    obtain ⟨rfl, hafter⟩ := numeral_inj (fun e he => hcs e (List.mem_cons_of_mem _ he))
      (fun e he => hds e (List.mem_cons_of_mem _ he)) hxs hys hrest
    exact ⟨rfl, hafter⟩

/-- An integer in decimal digits. -/
def writeInt : Int → List Char
  | .ofNat n => Nat.toDigits 10 n
  | .negSucc n => '-' :: Nat.toDigits 10 (n + 1)

theorem isDigit_toDigits {n : Nat} {c : Char} (hc : c ∈ Nat.toDigits 10 n) : c.isDigit = true :=
  Nat.isDigit_of_mem_toDigits (by omega) (by omega) hc

theorem toDigits_inj {m n : Nat} (h : Nat.toDigits 10 m = Nat.toDigits 10 n) : m = n := by
  have hvalues := congrArg (Nat.ofDigitChars 10 · 0) h
  simpa only [Nat.ofDigitChars_ten_toDigits] using hvalues

theorem isNumeral_writeInt {n : Int} {c : Char} (hc : c ∈ writeInt n) : isNumeral c = true := by
  cases n with
  | ofNat n => simp [isNumeral, isDigit_toDigits hc]
  | negSucc n =>
    rcases List.mem_cons.mp hc with rfl | hdigit
    · rfl
    · simp [isNumeral, isDigit_toDigits hdigit]

/-- An integer has no mark of a float. -/
theorem not_marked_writeInt {n : Int} {c : Char} (hc : c ∈ writeInt n) : c ≠ '.' ∧ c ≠ 'e' := by
  cases n with
  | ofNat n => constructor <;> rintro rfl <;> exact absurd (isDigit_toDigits hc) (by decide)
  | negSucc n =>
    rcases List.mem_cons.mp hc with rfl | hdigit
    · decide
    · constructor <;> rintro rfl <;> exact absurd (isDigit_toDigits hdigit) (by decide)

theorem writeInt_ne_nil (n : Int) : writeInt n ≠ [] := by
  cases n with
  | ofNat n => exact Nat.toDigits_ne_nil
  | negSucc n => exact List.cons_ne_nil _ _

theorem writeInt_inj {m n : Int} (h : writeInt m = writeInt n) : m = n := by
  have hsign : ∀ m n : Nat, Nat.toDigits 10 m ≠ '-' :: Nat.toDigits 10 (n + 1) := by
    intro m n hdash
    have hmem : '-' ∈ Nat.toDigits 10 m := by rw [hdash]; exact List.mem_cons_self
    exact absurd (isDigit_toDigits hmem) (by decide)
  cases m with
  | ofNat m =>
    cases n with
    | ofNat n => rw [toDigits_inj h]
    | negSucc n => exact absurd h (hsign m n)
  | negSucc m =>
    cases n with
    | ofNat n => exact absurd h.symm (hsign n m)
    | negSucc n =>
      have hsucc := toDigits_inj (List.cons.inj h).2
      rw [Nat.succ.inj hsucc]

/-- How floats are printed: no two alike, in the characters of numerals, and never as an
integer is. -/
structure FloatFormat (F : Type) where
  write : F → List Char
  injective : Function.Injective write
  numeral : ∀ x, ∀ c ∈ write x, isNumeral c = true
  marked : ∀ x, ∃ c ∈ write x, c = '.' ∨ c = 'e'

variable {F : Type}

theorem FloatFormat.write_ne_nil (format : FloatFormat F) (x : F) : format.write x ≠ [] := by
  obtain ⟨c, hc, -⟩ := format.marked x
  exact List.ne_nil_of_mem hc

theorem FloatFormat.write_ne_int (format : FloatFormat F) (x : F) (n : Int) :
    format.write x ≠ writeInt n := by
  intro h
  obtain ⟨c, hc, hmark⟩ := format.marked x
  rw [h] at hc
  obtain ⟨hdot, he⟩ := not_marked_writeInt hc
  rcases hmark with hmark | hmark
  · exact hdot hmark
  · exact he hmark

/-! ## Values -/

inductive Value (F : Type) where
  | null
  | bool (b : Bool)
  | int (n : Int)
  | float (x : F)
  | str (s : String)
  | arr (items : List (Value F))
  | obj (members : List (String × Value F))
  deriving Repr

/-- The member of an object under a key. -/
def Value.get? (key : String) : Value F → Option (Value F)
  | .obj members => (members.find? fun member => member.1 = key).map (·.2)
  | _ => none

section Write

variable (format : FloatFormat F)

mutual

/-- The text of a value, with nothing between its parts but a comma or a colon. -/
def write : Value F → List Char
  | .null => "null".toList
  | .bool true => "true".toList
  | .bool false => "false".toList
  | .int n => writeInt n
  | .float x => format.write x
  | .str s => writeString s
  | .arr [] => "[]".toList
  | .arr (v :: vs) => '[' :: write v ++ writeItems vs
  | .obj [] => "\x7b\x7d".toList
  | .obj ((k, v) :: kvs) => '{' :: writeString k ++ ':' :: write v ++ writeMembers kvs

/-- The items behind the first, and the bracket. -/
def writeItems : List (Value F) → List Char
  | [] => [']']
  | v :: vs => ',' :: write v ++ writeItems vs

/-- The members behind the first, and the brace. -/
def writeMembers : List (String × Value F) → List Char
  | [] => ['}']
  | (k, v) :: kvs => ',' :: writeString k ++ ':' :: write v ++ writeMembers kvs

end

/-- What kind of value a text begins: one mark for each kind. -/
def kindOf (c : Char) : Char :=
  if isNumeral c then '0' else if c = 't' ∨ c = 'f' then 'b' else c

def Value.kind : Value F → Char
  | .null => 'n'
  | .bool _ => 'b'
  | .int _ | .float _ => '0'
  | .str _ => '"'
  | .arr _ => '['
  | .obj _ => '{'

/-- A text of numeral characters begins a number. -/
theorem kindOf_numeral {cs : List Char} (hne : cs ≠ []) (hnum : ∀ c ∈ cs, isNumeral c = true)
    (xs : List Char) : (cs ++ xs).head?.map kindOf = some '0' := by
  cases cs with
  | nil => exact absurd rfl hne
  | cons c cs =>
    have hc : kindOf c = '0' := if_pos (hnum c List.mem_cons_self)
    rw [List.cons_append, List.head?_cons, Option.map_some, hc]

/-- The kind of a value shows in its first character. -/
theorem kindOf_write (v : Value F) (xs : List Char) :
    (write format v ++ xs).head?.map kindOf = some v.kind := by
  cases v with
  | null => rfl
  | bool b => cases b <;> rfl
  | int n => exact kindOf_numeral (writeInt_ne_nil n) (fun c hc => isNumeral_writeInt hc) xs
  | float x => exact kindOf_numeral (format.write_ne_nil x) (format.numeral x) xs
  | str s => rfl
  | arr vs => cases vs <;> rfl
  | obj kvs => cases kvs <;> rfl

theorem halts_writeItems (vs : List (Value F)) (xs : List Char) :
    Halts (writeItems format vs ++ xs) := by
  cases vs <;> exact halts_cons rfl

theorem halts_writeMembers (kvs : List (String × Value F)) (xs : List Char) :
    Halts (writeMembers format kvs ++ xs) := by
  cases kvs <;> exact halts_cons rfl

/-- No value begins as an empty array goes on. -/
theorem write_ne_bracket (v : Value F) (xs ys : List Char) :
    write format v ++ xs ≠ ']' :: ys := by
  intro h
  have hkind := kindOf_write format v xs
  rw [h, List.head?_cons, Option.map_some, Option.some.injEq] at hkind
  have hbracket : kindOf ']' = ']' := by decide
  rw [hbracket] at hkind
  cases v <;> simp [Value.kind] at hkind

variable {format}

mutual

/-- **Values are legible** before anything that ends a numeral. -/
theorem legible_write : ∀ (v w : Value F) {xs ys : List Char}, Halts xs → Halts ys →
    write format v ++ xs = write format w ++ ys → v = w ∧ xs = ys
  | v, w, xs, ys, hxs, hys, h => by
    have hkind : v.kind = w.kind := by
      have hheads := congrArg (fun text => text.head?.map kindOf) h
      simp only [kindOf_write, Option.some.injEq] at hheads
      exact hheads
    match v, w, hkind with
    | .null, .null, _ => exact ⟨rfl, List.append_cancel_left h⟩
    | .bool true, .bool true, _ => exact ⟨rfl, List.append_cancel_left h⟩
    | .bool false, .bool false, _ => exact ⟨rfl, List.append_cancel_left h⟩
    | .bool true, .bool false, _ => simp [write] at h
    | .bool false, .bool true, _ => simp [write] at h
    | .int m, .int n, _ =>
      obtain ⟨hdigits, hrest⟩ := numeral_inj (fun c hc => isNumeral_writeInt hc)
        (fun c hc => isNumeral_writeInt hc) hxs hys h
      exact ⟨congrArg Value.int (writeInt_inj hdigits), hrest⟩
    | .float x, .float y, _ =>
      obtain ⟨htexts, hrest⟩ := numeral_inj (format.numeral x) (format.numeral y) hxs hys h
      exact ⟨congrArg Value.float (format.injective htexts), hrest⟩
    | .int m, .float y, _ =>
      obtain ⟨hdigits, -⟩ := numeral_inj (fun c hc => isNumeral_writeInt hc)
        (format.numeral y) hxs hys h
      exact absurd hdigits.symm (format.write_ne_int y m)
    | .float x, .int n, _ =>
      obtain ⟨hdigits, -⟩ := numeral_inj (format.numeral x)
        (fun c hc => isNumeral_writeInt hc) hxs hys h
      exact absurd hdigits (format.write_ne_int x n)
    | .str s, .str t, _ =>
      obtain ⟨hchars, hrest⟩ := legible_writeString trivial trivial h
      exact ⟨congrArg Value.str hchars, hrest⟩
    | .arr [], .arr [], _ => exact ⟨rfl, List.append_cancel_left h⟩
    | .arr [], .arr (w :: ws), _ =>
      simp only [write, List.cons_append, List.append_assoc] at h
      exact absurd (List.cons.inj h).2.symm (write_ne_bracket format w _ xs)
    | .arr (v :: vs), .arr [], _ =>
      simp only [write, List.cons_append, List.append_assoc] at h
      exact absurd (List.cons.inj h).2 (write_ne_bracket format v _ ys)
    | .arr (v :: vs), .arr (w :: ws), _ =>
      simp only [write, List.cons_append, List.append_assoc, List.cons.injEq, true_and] at h
      obtain ⟨rfl, hrest⟩ := legible_write v w (halts_writeItems format vs xs)
        (halts_writeItems format ws ys) h
      obtain ⟨rfl, hafter⟩ := legible_writeItems vs ws hrest
      exact ⟨rfl, hafter⟩
    | .obj [], .obj [], _ => exact ⟨rfl, List.append_cancel_left h⟩
    | .obj [], .obj ((l, w) :: lws), _ => simp [write, writeString] at h
    | .obj ((k, v) :: kvs), .obj [], _ => simp [write, writeString] at h
    | .obj ((k, v) :: kvs), .obj ((l, w) :: lws), _ =>
      simp only [write, List.cons_append, List.append_assoc, List.cons.injEq, true_and] at h
      obtain ⟨rfl, hcolon⟩ := legible_writeString trivial trivial h
      obtain ⟨rfl, hrest⟩ := legible_write v w (halts_writeMembers format kvs xs)
        (halts_writeMembers format lws ys) (List.cons.inj hcolon).2
      obtain ⟨rfl, hafter⟩ := legible_writeMembers kvs lws hrest
      exact ⟨rfl, hafter⟩

/-- So are the items of an array, whatever follows. -/
theorem legible_writeItems : ∀ (vs ws : List (Value F)) {xs ys : List Char},
    writeItems format vs ++ xs = writeItems format ws ++ ys → vs = ws ∧ xs = ys
  | [], [], _, _, h => ⟨rfl, List.append_cancel_left h⟩
  | [], w :: ws, _, _, h => by simp [writeItems] at h
  | v :: vs, [], _, _, h => by simp [writeItems] at h
  | v :: vs, w :: ws, xs, ys, h => by
    simp only [writeItems, List.cons_append, List.append_assoc, List.cons.injEq, true_and] at h
    obtain ⟨rfl, hrest⟩ := legible_write v w (halts_writeItems format vs xs)
      (halts_writeItems format ws ys) h
    obtain ⟨rfl, hafter⟩ := legible_writeItems vs ws hrest
    exact ⟨rfl, hafter⟩

/-- And the members of an object. -/
theorem legible_writeMembers : ∀ (kvs lws : List (String × Value F)) {xs ys : List Char},
    writeMembers format kvs ++ xs = writeMembers format lws ++ ys → kvs = lws ∧ xs = ys
  | [], [], _, _, h => ⟨rfl, List.append_cancel_left h⟩
  | [], (l, w) :: lws, _, _, h => by simp [writeMembers] at h
  | (k, v) :: kvs, [], _, _, h => by simp [writeMembers] at h
  | (k, v) :: kvs, (l, w) :: lws, xs, ys, h => by
    simp only [writeMembers, List.cons_append, List.append_assoc, List.cons.injEq,
      true_and] at h
    obtain ⟨rfl, hcolon⟩ := legible_writeString trivial trivial h
    obtain ⟨rfl, hrest⟩ := legible_write v w (halts_writeMembers format kvs xs)
      (halts_writeMembers format lws ys) (List.cons.inj hcolon).2
    obtain ⟨rfl, hafter⟩ := legible_writeMembers kvs lws hrest
    exact ⟨rfl, hafter⟩

end

variable (format)

/-- `json.dumps` of a value, compact and in ASCII. -/
def dumps (v : Value F) : String := String.ofList (write format v)

/-- **A value is determined by its text.** -/
theorem dumps_injective : Function.Injective (dumps format) := by
  have hlegible : Legible Halts (write format) := fun v w _ _ hxs hys h =>
    legible_write v w hxs hys h
  intro v w h
  exact hlegible.injective halts_nil (String.ofList_injective h)

end Write

/-! ## Sorted keys -/

/-- Put a member where its key belongs. -/
def insertMember (kv : String × Value F) : List (String × Value F) → List (String × Value F)
  | [] => [kv]
  | lw :: rest => if kv.1 ≤ lw.1 then kv :: lw :: rest else lw :: insertMember kv rest

mutual

/-- Sort the members of every object by their keys. -/
def sortKeys : Value F → Value F
  | .arr vs => .arr (sortItems vs)
  | .obj kvs => .obj (sortMembers kvs)
  | v => v

def sortItems : List (Value F) → List (Value F)
  | [] => []
  | v :: vs => sortKeys v :: sortItems vs

def sortMembers : List (String × Value F) → List (String × Value F)
  | [] => []
  | (k, v) :: kvs => insertMember (k, sortKeys v) (sortMembers kvs)

end

theorem sortItems_eq_map : ∀ vs : List (Value F), sortItems vs = vs.map sortKeys
  | [] => rfl
  | v :: vs => by rw [sortItems, sortItems_eq_map vs, List.map_cons]

example : sortKeys (.obj [("b", .int 1), ("a", .arr [.obj [("d", .null), ("c", .bool true)]])])
    = (.obj [("a", .arr [.obj [("c", .bool true), ("d", .null)]]), ("b", .int 1)] : Value Unit) :=
  rfl

end Json
