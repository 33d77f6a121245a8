import LlmGateway.Db.Messages
import LlmGateway.Memory.Stored

/-!
# What a conversation is read back as

`to_canonical` over the columns of a row. The database hands out what was stored with
the members of its objects in an order of its own, so a row is held by any columns that
say the same by key. What `append` has written is read back as it was, and no other
columns are read as a message.
-/

namespace LlmGateway

namespace Stored

open Json

variable {F : Type}

/-! ## The columns of a row -/

/-- A row of `messages`. -/
structure Columns (F : Type) where
  id : String
  role : String
  content : Value F
  «meta» : Value F
  seq : Int

/-- What `to_canonical` makes of it: the blocks are the objects of the column. -/
structure Loaded (F : Type) where
  id : String
  role : Role
  content : List (Value F)
  «meta» : StoredMeta
  seq : Int

def roleName : Role → String
  | .system => "system"
  | .user => "user"
  | .assistant => "assistant"

/-- `ROLES`. -/
def roles : List (String × Role) :=
  [("system", .system), ("user", .user), ("assistant", .assistant)]

/-- `parse_role`. -/
def parseRole (repr : Value F → String) (raw : String) : Except Violation Role :=
  match roles.lookup raw with
  | some role => return role
  | none => throw { message := "unknown role " ++ repr (.str raw) }

/-- `to_canonical`. -/
def toCanonical (repr : Value F → String) (row : Columns F) : Except Violation (Loaded F) := do
  let role ← parseRole repr row.role
  let content ← parseContent repr row.content
  let stored ← fromJsonb repr row.meta
  return { id := row.id, role, content, «meta» := stored, seq := row.seq }

/-- The metadata of a message, to be stored. -/
def ofMeta (m : MessageMeta) : StoredMeta :=
  { providerUsed := m.providerUsed, modelUsed := m.modelUsed, slotUsed := m.slotUsed
    requestedSlot := m.requestedSlot, substituted := m.substituted, attempts := m.attempts
    tokensIn := m.tokensIn, tokensOut := m.tokensOut, wastedTokensOut := m.wastedTokensOut
    degraded := m.degraded, extractionTier := m.extractionTier
    messagesDropped := m.messagesDropped, keyPool := m.keyPool }

/-- Blocks of a column are those of a message. -/
def Blocks (content : List (Value F)) (blocks : List ContentBlock) : Prop :=
  List.Forall₂ (fun v block => Alike v (rawOf block)) content blocks

/-- The columns hold a row that `append` has inserted. -/
structure Holds (columns : Columns F) (row : Messages.Row) : Prop where
  id : columns.id = row.id
  role : columns.role = roleName row.role
  content : ∃ content, columns.content = .arr content ∧ Blocks content row.content
  «meta» : Alike columns.meta (ofMeta row.meta).toJsonb
  seq : columns.seq = row.seq

/-- A message that was read is the one that was stored. -/
structure Tells (loaded : Loaded F) (row : Messages.Row) : Prop where
  id : loaded.id = row.id
  role : loaded.role = row.role
  content : Blocks loaded.content row.content
  «meta» : loaded.meta = ofMeta row.meta
  seq : loaded.seq = row.seq

/-- Columns that say what a message is. -/
structure Reads (columns : Columns F) (loaded : Loaded F) : Prop where
  id : loaded.id = columns.id
  role : columns.role = roleName loaded.role
  content : columns.content = .arr loaded.content
  blocks : ∃ blocks, blocks ≠ [] ∧ (∀ block ∈ blocks, Sound block) ∧ Blocks loaded.content blocks
  «meta» : columns.meta = .null ∧ loaded.meta = {} ∨
    (∃ members, columns.meta = .obj members) ∧ Says columns.meta loaded.meta
  seq : loaded.seq = columns.seq

section

variable {repr : Value F → String} {columns : Columns F} {loaded : Loaded F} {row : Messages.Row}

theorem parseRole_eq_ok {raw : String} {role : Role} :
    parseRole repr raw = .ok role ↔ raw = roleName role := by
  have hlookup : roles.lookup raw = some role ↔ raw = roleName role := by
    refine lookup_eq_some_iff (by decide) (fun a => ?_) raw role
    cases a <;> rfl
  rw [← hlookup]
  unfold parseRole
  cases roles.lookup raw with
  | none => simp [throw, throwThe, MonadExceptOf.throw]
  | some found => simp [pure, Except.pure]

theorem fromJsonb_eq_ok {raw : Value F} {m : StoredMeta} :
    fromJsonb repr raw = .ok m ↔
      raw = .null ∧ m = {} ∨ (∃ members, raw = .obj members) ∧ Says raw m := by
  cases raw with
  | null => simp [fromJsonb, pure, Except.pure, eq_comm]
  | obj members =>
    refine readMeta_eq_ok.trans ?_
    simp
  | _ => simp [fromJsonb, throw, throwThe, MonadExceptOf.throw]

/-- **Columns are read as a message exactly when they say what it is.** -/
theorem toCanonical_eq_ok : toCanonical repr columns = .ok loaded ↔ Reads columns loaded := by
  unfold toCanonical
  rw [bind_eq_ok_iff]
  constructor
  · rintro ⟨role, hrole, hrest⟩
    obtain ⟨content, hcontent, hrest⟩ := bind_eq_ok_iff.mp hrest
    obtain ⟨stored, hmeta, hrest⟩ := bind_eq_ok_iff.mp hrest
    obtain ⟨harr, hblocks⟩ := parseContent_eq_ok.mp hcontent
    cases hrest
    exact ⟨rfl, parseRole_eq_ok.mp hrole, harr, hblocks, fromJsonb_eq_ok.mp hmeta, rfl⟩
  · intro h
    refine ⟨loaded.role, parseRole_eq_ok.mpr h.role, ?_⟩
    refine bind_eq_ok_iff.mpr ⟨loaded.content, parseContent_eq_ok.mpr ⟨h.content, h.blocks⟩, ?_⟩
    refine bind_eq_ok_iff.mpr ⟨loaded.meta, fromJsonb_eq_ok.mpr h.meta, ?_⟩
    rw [← h.id, ← h.seq]
    rfl

/-- A block that is read back is one that stands for something. -/
theorem parseBlock_eq_ok_iff_sound {block : ContentBlock} :
    Messages.parseBlock block = .ok block ↔ Sound block := by
  cases block with
  | omissionMarker omittedCount reason =>
    by_cases hzero : omittedCount < 1
    · refine iff_of_false ?_ (not_le.mpr hzero)
      simp [Messages.parseBlock, hzero, throw, throwThe, MonadExceptOf.throw]
    · refine iff_of_true ?_ (not_lt.mp hzero)
      simp [Messages.parseBlock, hzero, pure, Except.pure]
  | _ => exact iff_of_true rfl trivial

/-- Two objects that one value is. -/
theorem rawOf_inj {block block' : ContentBlock}
    (h : Alike (rawOf block : Value F) (rawOf block')) : block = block' := by
  have htype := h "type"
  cases block <;> cases block' <;> simp [rawOf] at htype
  · have htext := h "text"
    simpa [rawOf] using htext
  · rename_i ref ref'
    obtain ⟨fileHash, filename, mime, bytes⟩ := ref
    obtain ⟨fileHash', filename', mime', bytes'⟩ := ref'
    have hhash := h "file_hash"
    have hname := h "filename"
    have hmime := h "mime"
    have hbytes := h "bytes"
    simp [rawOf] at hhash hname hmime hbytes
    have hsize : bytes = bytes' := by omega
    rw [hhash, hname, hmime, hsize]
  · rename_i omittedCount reason omittedCount' reason'
    have hcount := h "omitted_count"
    simp [rawOf] at hcount
    cases reason
    cases reason'
    have hsame : omittedCount = omittedCount' := by omega
    rw [hsame]

theorem Blocks.unique {content : List (Value F)} {blocks blocks' : List ContentBlock}
    (h : Blocks content blocks) (h' : Blocks content blocks') : blocks = blocks' := by
  induction h generalizing blocks' with
  | nil => exact (List.forall₂_nil_left_iff.mp h').symm
  | cons halike _ ih =>
    cases h' with
    | cons halike' hrest' =>
      rw [rawOf_inj (halike.symm.trans halike'), ih hrest']

theorem roleName_injective : Function.Injective roleName := by
  intro role role' h
  cases role <;> cases role' <;> first | rfl | exact absurd h (by decide)

/-- What is stored of a message is an object, since it has members. -/
theorem Holds.isObj (h : Holds columns row) : ∃ members, columns.meta = .obj members := by
  have hattempts : columns.meta.get? "attempts" = some (.int row.meta.attempts) := h.meta "attempts"
  cases hmeta : columns.meta with
  | obj members => exact ⟨members, rfl⟩
  | _ =>
    rw [hmeta] at hattempts
    cases hattempts

/-- **A row is read back as it was stored**, unless a marker of it stands for nothing. -/
theorem Holds.toCanonical_eq_ok (h : Holds columns row) (hcontent : row.content ≠ []) :
    toCanonical repr columns = .ok loaded ↔
      Messages.Readable row.content ∧ columns.content = .arr loaded.content ∧
        Tells loaded row := by
  rw [Stored.toCanonical_eq_ok]
  have hsays : Says columns.meta (ofMeta row.meta) := (says_toJsonb _).alike h.meta.symm
  have hobj := h.isObj
  constructor
  · intro hreads
    obtain ⟨content, harr, hblocks⟩ := h.content
    have hsame : content = loaded.content := Value.arr.inj (harr.symm.trans hreads.content)
    subst hsame
    obtain ⟨blocks, -, hsound, hblocks'⟩ := hreads.blocks
    obtain rfl := hblocks.unique hblocks'
    refine ⟨fun block hblock => parseBlock_eq_ok_iff_sound.mpr (hsound block hblock), harr, ?_⟩
    refine ⟨hreads.id.trans h.id, ?_, hblocks, ?_, hreads.seq.trans h.seq⟩
    · exact roleName_injective (hreads.role.symm.trans h.role)
    · rcases hreads.meta with ⟨hnull, -⟩ | ⟨-, hmeta⟩
      · rw [hnull] at hobj
        obtain ⟨members, hmembers⟩ := hobj
        cases hmembers
      · exact hmeta.unique hsays
  · rintro ⟨hreadable, harr, htells⟩
    refine ⟨htells.id.trans h.id.symm, ?_, harr, ⟨row.content, hcontent, ?_, htells.content⟩, ?_,
      htells.seq.trans h.seq.symm⟩
    · rw [h.role, htells.role]
    · intro block hblock
      exact parseBlock_eq_ok_iff_sound.mp (hreadable block hblock)
    · exact .inr ⟨hobj, htells.meta ▸ hsays⟩

/-- A message that was read, of a row whose blocks are there. -/
theorem Holds.exists_toCanonical (h : Holds columns row) (hcontent : row.content ≠ [])
    (hreadable : Messages.Readable row.content) :
    ∃ loaded, toCanonical repr columns = .ok loaded := by
  obtain ⟨content, harr, hblocks⟩ := h.content
  let loaded : Loaded F :=
    { id := row.id, role := row.role, content, «meta» := ofMeta row.meta, seq := row.seq }
  have htells : Tells loaded row := ⟨rfl, rfl, hblocks, rfl, rfl⟩
  exact ⟨loaded, (h.toCanonical_eq_ok hcontent).mpr ⟨hreadable, harr, htells⟩⟩

end

/-! ## Histories -/

/-- No sound row is empty. -/
theorem content_ne_nil_of_sound {rows : List Messages.Row} (h : Messages.Sound rows)
    {row : Messages.Row} (hrow : row ∈ rows) : row.content ≠ [] := by
  obtain ⟨before, after, rfl⟩ := List.append_of_mem hrow
  have hinitial : Messages.Sound ((before ++ [row]) ++ after) := by
    rwa [List.append_assoc]
  have hbefore := h.initial
  exact Messages.content_ne_nil (hbefore.concat_iff.mp hinitial.initial).1

/-- `list_for_conversation`, from the columns. -/
def load (repr : Value F → String) (stored : List (Columns F)) :
    Except Violation (List (Loaded F)) :=
  stored.mapM (toCanonical repr)

/-- **Rows that hold a history are read back as it, message by message**, and they are as soon as no
marker stands for nothing. -/
theorem load_eq_ok {repr : Value F → String} {stored : List (Columns F)}
    {rows : List Messages.Row} (hstored : List.Forall₂ Holds stored rows)
    (hcontent : ∀ row ∈ rows, row.content ≠ []) :
    ((∃ loaded, load repr stored = .ok loaded) ↔
        ∀ row ∈ rows, Messages.Readable row.content) ∧
      ∀ loaded, load repr stored = .ok loaded → List.Forall₂ Tells loaded rows := by
  induction hstored with
  | nil =>
    refine ⟨iff_of_true ⟨[], rfl⟩ (by simp), fun loaded h => ?_⟩
    cases h
    exact .nil
  | @cons columns row stored rows hhead _ ih =>
    obtain ⟨hne, hrest⟩ := List.forall_mem_cons.mp hcontent
    obtain ⟨hiff, htells⟩ := ih hrest
    have hcons : ∀ loaded, load repr (columns :: stored) = .ok loaded ↔
        ∃ first later, toCanonical repr columns = .ok first ∧ load repr stored = .ok later ∧
          loaded = first :: later := by
      intro loaded
      unfold load
      rw [List.mapM_cons, bind_eq_ok_iff]
      simp only [bind_pure_eq_ok_iff]
      exact ⟨fun ⟨first, hfirst, later, hlater, heq⟩ => ⟨first, later, hfirst, hlater, heq⟩,
        fun ⟨first, later, hfirst, hlater, heq⟩ => ⟨first, hfirst, later, hlater, heq⟩⟩
    refine ⟨?_, fun loaded h => ?_⟩
    · rw [List.forall_mem_cons, ← hiff]
      constructor
      · rintro ⟨loaded, h⟩
        obtain ⟨first, later, hfirst, hlater, -⟩ := (hcons loaded).mp h
        exact ⟨((hhead.toCanonical_eq_ok hne).mp hfirst).1, later, hlater⟩
      · rintro ⟨hreadable, later, hlater⟩
        obtain ⟨first, hfirst⟩ := @Holds.exists_toCanonical F repr _ _ hhead hne hreadable
        exact ⟨first :: later, (hcons _).mpr ⟨first, later, hfirst, hlater, rfl⟩⟩
    · obtain ⟨first, later, hfirst, hlater, rfl⟩ := (hcons loaded).mp h
      exact .cons ((hhead.toCanonical_eq_ok hne).mp hfirst).2.2 (htells later hlater)

/-- **The columns are read as what was written, and nothing else is.** Columns are a message
exactly when they say what it is; and whatever any run of appends, commits and rollbacks has left
of a conversation, however its objects come back, is loaded message by message as it was appended,
as soon as none of its markers stands for nothing. -/
theorem history_read_back (repr : Value F → String) (owner : String) (ops : List Messages.Op)
    (stored : List (Columns F))
    (hstored : List.Forall₂ Holds stored
      (Messages.listForConversation (Messages.Table.run owner {} ops).stored)) :
    (∀ columns loaded, toCanonical repr columns = .ok loaded ↔ Reads columns loaded) ∧
      ((∃ loaded, load repr stored = .ok loaded) ↔
        ∀ row ∈ (Messages.Table.run owner {} ops).stored, Messages.Readable row.content) ∧
      ∀ loaded, load repr stored = .ok loaded →
        List.Forall₂ Tells loaded (Messages.Table.run owner {} ops).stored := by
  have hstart : Messages.Table.Sound {} := ⟨Messages.sound_nil, Messages.sound_nil⟩
  have hsound := (hstart.run owner ops).stored
  rw [hsound.listForConversation] at hstored
  have hload := @load_eq_ok F repr _ _ hstored fun row hrow =>
    content_ne_nil_of_sound hsound hrow
  exact ⟨fun columns loaded => toCanonical_eq_ok, hload.1, hload.2⟩

/-- One message, appended and committed. -/
def greets : List Messages.Op :=
  [.append "ada" { role := .user, content := [.text "hi"], id := "m" }, .commit]

/-- Its columns, the members of the block the other way round. -/
def heldGreeting : Columns Unit :=
  { id := "m", role := "user", content := .arr [.obj [("text", .str "hi"), ("type", .str "text")]]
    «meta» := (ofMeta {}).toJsonb, seq := 0 }

theorem history_read_back_greets :
    (∀ columns loaded, toCanonical (fun _ => "") columns = .ok loaded ↔
        Reads (columns : Columns Unit) loaded) ∧
      ((∃ loaded, load (fun _ => "") [heldGreeting] = .ok loaded) ↔
        ∀ row ∈ (Messages.Table.run "ada" {} greets).stored, Messages.Readable row.content) ∧
      ∀ loaded, load (fun _ => "") [heldGreeting] = .ok loaded →
        List.Forall₂ Tells loaded (Messages.Table.run "ada" {} greets).stored := by
  refine history_read_back (fun _ => "") "ada" greets [heldGreeting] ?_
  have hstart : Messages.Table.Sound {} := ⟨Messages.sound_nil, Messages.sound_nil⟩
  rw [((hstart.run "ada" greets).stored).listForConversation]
  have hblock : Alike (.obj [("text", .str "hi"), ("type", .str "text")] : Value Unit)
      (rawOf (.text "hi")) := by
    refine alike_obj (by decide) (fun key => ?_) (by simp)
    simp [keysOf, or_comm]
  exact .cons ⟨rfl, rfl, ⟨_, rfl, .cons hblock .nil⟩, fun _ => rfl, rfl⟩ .nil

end Stored

end LlmGateway
