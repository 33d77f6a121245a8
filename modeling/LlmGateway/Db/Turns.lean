import LlmGateway.Chat.Interface
import LlmGateway.Db.Messages
import LlmGateway.Effects.Pool

/-!
# Turns on one conversation

Any number of turns, each of which stores what was asked, has an answer generated
and stores that. The lock makes one transaction of each of the two appends, and
holds nobody off in between; so what an answer comes behind is whatever the other
turns have made the tail by then, and behind an answer it is not stored.
-/

namespace LlmGateway

namespace Turns

open Effects Messages

/-- What a turn stores, before it has an id. -/
structure Said where
  role : Role
  content : List ContentBlock
  «meta» : MessageMeta := {}
  deriving DecidableEq, Repr

def Said.draft (said : Said) (id : String) : Draft := { said with id }

/-- A generation that succeeded. -/
structure Generated where
  text : String
  provider : String
  «meta» : MessageMeta := {}
  deriving DecidableEq, Repr

/-- The row of a served turn: it names its provider. -/
def Generated.said (generated : Generated) : Said where
  role := .assistant
  content := [.text generated.text]
  «meta» := { generated.meta with providerUsed := some generated.provider }

/-- The questions of a turn. -/
inductive Ask where
  /-- The transaction of the request's own messages. -/
  | inbound (messages : List Said)
  | generate
  /-- The transaction of the answer. -/
  | answer (said : Said)
  deriving DecidableEq, Repr

def Ans : Ask → Type
  | .inbound _ => Except AppendError Unit
  | .generate => Option Generated
  | .answer _ => Except AppendError Row

/-- The interface of a turn. -/
abbrev iface : Iface := ⟨Ask, Ans⟩

/-- What a turn comes to. -/
inductive Outcome where
  | refused (e : AppendError)
  | failed
  | answered (row : Row)
  /-- An answer was generated, and not stored. -/
  | dropped (e : AppendError)
  deriving DecidableEq, Repr

/-- What the append of an answer makes of its turn: an error of the request, or of a stream that
has sent all of it, which swallows it. -/
def settled : Except AppendError Row → Outcome
  | .ok row => .answered row
  | .error e => .dropped e

/-- **A turn.** -/
def turn (messages : List (Chat.InputRole × List ContentBlock)) : Prog iface Empty Outcome :=
  .ask (.inbound (messages.map fun message => ⟨message.1.role, message.2, {}⟩)) fun
    | .error e => .ret (.refused e)
    | .ok () => .ask .generate fun
      | none => .ret .failed
      | some generated => .ask (.answer generated.said) fun answer => .ret (settled answer)

/-! ## The database -/

/-- The rows of the conversation, and whether an answer has come behind an answer. -/
structure Store where
  rows : List Row
  crossed : Bool := false

/-- The last message is an answer. -/
def endsInAnswer (rows : List Row) : Bool := (getLast rows).any (·.role = .assistant)

/-- A transaction of one append: an error leaves nothing behind. -/
def transact (owner : String) (rows : List Row) (draft : Draft) : Except AppendError Row × List Row :=
  match append owner rows owner draft with
  | (.error e, _) => (.error e, rows)
  | (.ok row, rows) => (.ok row, rows)

/-- The database, carrying out every transaction of the conversation's owner. The ids it gives are
new. -/
inductive Serves (owner : String) : World iface Store
  | stored {s : Store} {rows : List Row} {messages : List Said} (ids : List String)
      (hids : (s.rows.map (·.id) ++ ids).Nodup) (hlength : ids.length = messages.length)
      (h : appendAll owner s.rows (messages.zipWith Said.draft ids) = .ok rows) :
      Serves owner s (.inbound messages) (Except.ok ()) { s with rows }
  | refused {s : Store} {e : AppendError} {messages : List Said} (ids : List String)
      (hids : (s.rows.map (·.id) ++ ids).Nodup) (hlength : ids.length = messages.length)
      (h : appendAll owner s.rows (messages.zipWith Said.draft ids) = .error e) :
      Serves owner s (.inbound messages) (Except.error e) s
  | generated {s : Store} (result : Option Generated) : Serves owner s .generate result s
  | answered {s : Store} {said : Said} (id : String) (hid : id ∉ s.rows.map (·.id)) :
      Serves owner s (.answer said) (transact owner s.rows (said.draft id)).1
        ⟨(transact owner s.rows (said.draft id)).2, s.crossed || endsInAnswer s.rows⟩

/-- Turns that have not begun, on a conversation with the rows that were stored before. -/
def turns {ι : Type} (owner : String) (earlier : List Op)
    (messages : ι → List (Chat.InputRole × List ContentBlock)) : Pool ι iface Empty Outcome Store :=
  ⟨⟨(Table.run owner {} earlier).stored, false⟩, fun i => turn (messages i)⟩

/-- **No answer is lost**: a turn that has ended and had an answer generated has its message in
the conversation. -/
structure NothingLost {ι : Type} (c : Pool ι iface Empty Outcome Store) : Prop where
  kept : ∀ i row, c.prog i = .ret (.answered row) → row ∈ c.store.rows
  not_dropped : ∀ i e, c.prog i ≠ .ret (.dropped e)

/-! ## One step of a turn -/

section

variable {rows : List Row} {owner : String}

/-- An answer names its provider and says something. -/
theorem validateMessage_said (generated : Generated) (seq : Int) :
    validateMessage generated.said.role generated.said.content generated.said.meta seq = .ok () := by
  simp only [validateMessage]
  rfl

/-- An answer may come behind whatever is no answer. -/
theorem sound_said (h : Sound rows) {generated : Generated} {id : String}
    (htail : endsInAnswer rows = false) :
    Sound (rows ++ [(generated.said.draft id).numbered rows.length]) := by
  refine h.concat_iff.mpr ⟨validateMessage_said generated _, validateAppend_ok_iff.mpr ?_⟩
  have hnext := h.nextSeq
  cases hlast : rows.getLast? with
  | none =>
    rw [hlast] at hnext
    exact hnext.symm
  | some tail =>
    rw [hlast] at hnext
    have hother : ¬ tail.role = .assistant := by
      rw [endsInAnswer, h.getLast, hlast] at htail
      simpa using htail
    refine ⟨hnext.symm, ?_, fun hboth => hother hboth.2⟩
    intro hsystem
    cases hsystem

/-- **What becomes of an answer**: it is stored, unless it comes behind an answer. -/
theorem transact_said (h : Sound rows) (generated : Generated) {id : String}
    (hid : id ∉ rows.map (·.id)) :
    transact owner rows (generated.said.draft id) =
      if endsInAnswer rows then (.error (.violation .consecutiveAssistants), rows)
      else (.ok ((generated.said.draft id).numbered rows.length),
        rows ++ [(generated.said.draft id).numbered rows.length]) := by
  have htransact : ∀ draft, transact owner rows draft =
      match append owner rows owner draft with
      | (.error e, _) => (.error e, rows)
      | (.ok row, rows) => (.ok row, rows) := fun _ => rfl
  cases htail : endsInAnswer rows with
  | true =>
    rw [endsInAnswer] at htail
    cases hlast : getLast rows with
    | none =>
      rw [hlast] at htail
      cases htail
    | some tail =>
      have hrole : tail.role = .assistant := by
        rw [hlast] at htail
        simpa using htail
      have happend : validateAppend (some tail.toCanonicalMessage) .assistant (tail.seq + 1) =
          .error .consecutiveAssistants := by
        simp only [validateAppend, ne_eq, not_true_eq_false, if_false, hrole]
        rfl
      have haccept : accept owner rows owner (generated.said.draft id) =
          .error (.violation .consecutiveAssistants) := by
        simp only [accept, ne_eq, not_true_eq_false, if_false, hlast, Option.map_some, nextSeq]
        rw [show validateMessage (generated.said.draft id).role (generated.said.draft id).content
          (generated.said.draft id).meta (tail.seq + 1) = .ok () from validateMessage_said ..]
        change ((validateAppend _ _ _).mapError AppendError.violation >>= _) = _
        rw [show validateAppend (some tail.toCanonicalMessage) (generated.said.draft id).role
          (tail.seq + 1) = .error .consecutiveAssistants from happend]
        rfl
      rw [htransact, append, haccept, if_pos rfl]
  | false =>
    have hsound : Sound (rows ++ [(generated.said.draft id).numbered rows.length]) :=
      sound_said h htail
    have hreadable : Readable ((generated.said.draft id).numbered rows.length).content := by
      intro block hblock
      obtain rfl := List.mem_singleton.mp hblock
      rfl
    have happend := append_eq_ok owner hsound hid hreadable
    have hdraft : ((generated.said.draft id).numbered rows.length).draft =
        generated.said.draft id := rfl
    rw [hdraft] at happend
    rw [htransact, happend, if_neg Bool.false_ne_true]

/-- An append leaves the rows, or one more. -/
theorem append_extends (draft : Draft) :
    ∃ after, (append owner rows owner draft).2 = rows ++ after := by
  unfold append
  split
  next => exact ⟨[], (List.append_nil rows).symm⟩
  next row _ =>
    split
    next => exact ⟨[], (List.append_nil rows).symm⟩
    next => exact ⟨[row], rfl⟩

/-- Appending goes on from what is there. -/
theorem appendAll_extends {drafts : List Draft} {rows' : List Row}
    (h : appendAll owner rows drafts = .ok rows') : ∃ after, rows' = rows ++ after := by
  induction drafts generalizing rows with
  | nil =>
    obtain rfl := Except.ok.inj h
    exact ⟨[], (List.append_nil rows).symm⟩
  | cons draft drafts ih =>
    unfold appendAll at h
    split at h
    next => cases h
    next row rows'' heq =>
      obtain ⟨first, hfirst⟩ : ∃ first, (append owner rows owner draft).2 = rows ++ first :=
        append_extends draft
      rw [heq] at hfirst
      obtain ⟨after, rfl⟩ := ih h
      have hrows : rows'' = rows ++ first := hfirst
      exact ⟨first ++ after, by rw [hrows, List.append_assoc]⟩

/-- What is appended one by one stays sound. -/
theorem sound_appendAll (h : Sound rows) {drafts : List Draft} {rows' : List Row}
    (happend : Messages.appendAll owner rows drafts = .ok rows') : Sound rows' := by
  induction drafts generalizing rows with
  | nil =>
    obtain rfl := Except.ok.inj happend
    exact h
  | cons draft drafts ih =>
    unfold Messages.appendAll at happend
    split at happend
    next => cases happend
    next row rows'' heq =>
      have hrows := h.append owner owner draft
      rw [heq] at hrows
      exact ih hrows happend

end

/-- Where a turn stands. -/
inductive Stage : Prog iface Empty Outcome → Prop
  | fresh (messages : List (Chat.InputRole × List ContentBlock)) : Stage (turn messages)
  | asked : Stage (.ask .generate fun
      | none => .ret .failed
      | some generated => .ask (.answer generated.said) fun answer => .ret (settled answer))
  | generated (generated : Generated) :
      Stage (.ask (.answer generated.said) fun answer => .ret (settled answer))
  | ended (outcome : Outcome) : Stage (.ret outcome)

/-- What one question of a turn does. -/
inductive Step (s : Store) : Store → Prog iface Empty Outcome → Prop
  | goes (p : Prog iface Empty Outcome) (after : List Row) (hp : Stage p)
      (hended : ∀ outcome, p = .ret outcome → (∃ e, outcome = .refused e) ∨ outcome = .failed)
      (hsound : Sound (s.rows ++ after)) : Step s { s with rows := s.rows ++ after } p
  | answered (row : Row) (htail : endsInAnswer s.rows = false) (hsound : Sound (s.rows ++ [row])) :
      Step s { s with rows := s.rows ++ [row] } (.ret (.answered row))
  | dropped (e : AppendError) (htail : endsInAnswer s.rows = true) :
      Step s { s with crossed := true } (.ret (.dropped e))

/-- **One question of a turn**, carried out. -/
theorem Stage.step {owner : String} {s s' : Store} {q : Ask} {k : Ans q → Prog iface Empty Outcome}
    {a : Ans q} (h : Stage (.ask q k)) (hs : Sound s.rows) (hw : Serves owner s q a s') :
    Step s s' (k a) := by
  generalize hp : (.ask q k : Prog iface Empty Outcome) = p at h
  cases h with
  | fresh messages =>
    obtain ⟨rfl, hk⟩ := Prog.ask.inj hp
    obtain rfl := eq_of_heq hk
    cases hw with
    | stored ids hids hlength happend =>
      obtain ⟨after, rfl⟩ := appendAll_extends happend
      refine .goes _ after .asked (fun outcome hret => ?_) (sound_appendAll hs happend)
      cases hret
    | @refused _ e _ ids hids hlength happend =>
      have hgoes := Step.goes (s := s) (.ret (.refused e)) [] (.ended _)
        (fun outcome hret => .inl ⟨e, (Prog.ret.inj hret).symm⟩) (by rwa [List.append_nil])
      rw [List.append_nil] at hgoes
      exact hgoes
  | asked =>
    obtain ⟨rfl, hk⟩ := Prog.ask.inj hp
    obtain rfl := eq_of_heq hk
    cases hw with
    | generated result =>
      have hsame : ∀ p, Stage p → (∀ outcome, p = .ret outcome →
          (∃ e, outcome = .refused e) ∨ outcome = .failed) → Step s s p := by
        intro p hp hended
        have hgoes := Step.goes (s := s) p [] hp hended (by rwa [List.append_nil])
        rw [List.append_nil] at hgoes
        exact hgoes
      rcases (a : Option Generated) with _ | generated
      · exact hsame _ (.ended _) fun outcome hret => .inr (Prog.ret.inj hret).symm
      · exact hsame _ (.generated generated) fun outcome hret => by cases hret
  | generated generated =>
    obtain ⟨rfl, hk⟩ := Prog.ask.inj hp
    obtain rfl := eq_of_heq hk
    cases hw with
    | answered id hid =>
      rw [transact_said hs generated hid]
      cases htail : endsInAnswer s.rows with
      | true =>
        rw [if_pos rfl, Bool.or_true]
        exact .dropped _ htail
      | false =>
        rw [if_neg Bool.false_ne_true, Bool.or_false]
        exact .answered _ htail (sound_said hs htail)
  | ended outcome => cases hp

section

variable {s s' : Store} {p : Prog iface Empty Outcome}

/-- What is stored stays. -/
theorem Step.extends (h : Step s s' p) : ∃ after, s'.rows = s.rows ++ after := by
  cases h with
  | goes _ after _ _ _ => exact ⟨after, rfl⟩
  | answered row _ _ => exact ⟨[row], rfl⟩
  | dropped _ _ => exact ⟨[], (List.append_nil _).symm⟩

theorem Step.sound (h : Step s s' p) (hs : Sound s.rows) : Sound s'.rows := by
  cases h with
  | goes _ _ _ _ hsound => exact hsound
  | answered _ _ hsound => exact hsound
  | dropped _ _ => exact hs

theorem Step.stage (h : Step s s' p) : Stage p := by
  cases h with
  | goes _ _ hp _ _ => exact hp
  | answered _ _ _ => exact .ended _
  | dropped _ _ => exact .ended _

/-- An answer that was stored is there. -/
theorem Step.kept {row : Row} (h : Step s s' (.ret (.answered row))) : row ∈ s'.rows := by
  generalize hp : (.ret (.answered row) : Prog iface Empty Outcome) = p at h
  cases h with
  | goes _ _ _ hquiet _ =>
    rcases hquiet _ hp.symm with ⟨e, hrefused⟩ | hfailed
    · cases hrefused
    · cases hfailed
  | answered row' _ _ =>
    obtain rfl := Outcome.answered.inj (Prog.ret.inj hp)
    exact List.mem_append_right _ (List.mem_singleton_self _)
  | dropped _ _ => cases hp

/-- An answer is dropped when it comes behind another, and only then. -/
theorem Step.crossed (h : Step s s' p) :
    s'.crossed = true ↔ s.crossed = true ∨ ∃ e, p = .ret (.dropped e) := by
  cases h with
  | goes _ _ _ hquiet _ =>
    refine ⟨.inl, fun hor => hor.elim id ?_⟩
    rintro ⟨e, rfl⟩
    rcases hquiet _ rfl with ⟨e', hrefused⟩ | hfailed
    · cases hrefused
    · cases hfailed
  | answered _ _ _ =>
    refine ⟨.inl, fun hor => hor.elim id ?_⟩
    rintro ⟨e, hret⟩
    cases hret
  | dropped e _ => exact ⟨fun _ => .inr ⟨e, rfl⟩, fun _ => rfl⟩

end

/-! ## Over runs -/

section

variable {ι : Type} {c : Pool ι iface Empty Outcome Store}

/-- What a run keeps. -/
structure Kept (c : Pool ι iface Empty Outcome Store) : Prop where
  sound : Sound c.store.rows
  stage : ∀ i, Stage (c.prog i)
  kept : ∀ i row, c.prog i = .ret (.answered row) → row ∈ c.store.rows
  /-- An answer is dropped exactly when one has come behind another. -/
  crossed : (∃ i e, c.prog i = .ret (.dropped e)) ↔ c.store.crossed = true

theorem kept_turns (owner : String) (earlier : List Op)
    (messages : ι → List (Chat.InputRole × List ContentBlock)) :
    Kept (turns owner earlier messages) where
  sound := ((⟨sound_nil, sound_nil⟩ : Table.Sound {}).run owner earlier).stored
  stage i := .fresh (messages i)
  kept i row h := by cases h
  crossed := by
    constructor
    · rintro ⟨i, e, h⟩
      cases h
    · intro h
      cases h

variable [DecidableEq ι]

theorem Kept.answered {owner : String} {i : ι} {q : Ask} {k : Ans q → Prog iface Empty Outcome}
    {a : Ans q} {s : Store} (h : Kept c) (hp : c.prog i = .ask q k)
    (hw : Serves owner c.store q a s) : Kept (c.answered i k a s) := by
  have hstage := h.stage i
  rw [hp] at hstage
  have hstep := hstage.step h.sound hw
  have hself : (c.answered i k a s).prog i = k a := Function.update_self _ _ _
  have hother : ∀ j, j ≠ i → (c.answered i k a s).prog j = c.prog j := fun j hj =>
    Function.update_of_ne hj _ _
  -- A turn that has ended is not this one.
  have hended : ∀ {j outcome}, c.prog j = .ret outcome → j ≠ i := by
    rintro j outcome hret rfl
    rw [hp] at hret
    cases hret
  obtain ⟨after, hrows⟩ := hstep.extends
  refine ⟨hstep.sound h.sound, fun j => ?_, fun j row hj => ?_, ?_⟩
  · by_cases hij : j = i
    · rw [hij, hself]
      exact hstep.stage
    · rw [hother j hij]
      exact h.stage j
  · by_cases hij : j = i
    · rw [hij, hself] at hj
      rw [hj] at hstep
      exact hstep.kept
    · rw [hother j hij] at hj
      have hmem := h.kept j row hj
      exact hrows ▸ List.mem_append_left _ hmem
  · refine Iff.trans ?_ hstep.crossed.symm
    constructor
    · rintro ⟨j, e, hj⟩
      by_cases hij : j = i
      · rw [hij, hself] at hj
        exact .inr ⟨e, hj⟩
      · rw [hother j hij] at hj
        exact .inl (h.crossed.mp ⟨j, e, hj⟩)
    · rintro (hcrossed | ⟨e, hdropped⟩)
      · obtain ⟨j, e, hj⟩ := h.crossed.mpr hcrossed
        exact ⟨j, e, (hother j (hended hj)).trans hj⟩
      · exact ⟨i, e, hself.trans hdropped⟩

/-- **Which answers are lost.** In every run of any number of turns on one conversation, every
answer that was generated is in the conversation if and only if none has come behind another. -/
theorem nothingLost_iff (owner : String) (earlier : List Op)
    (messages : ι → List (Chat.InputRole × List ContentBlock))
    (h : Pool.Reach (fun _ => Serves owner) (fun _ _ => False) (turns owner earlier messages) c) :
    NothingLost c ↔ c.store.crossed = false := by
  have hkept : Kept c := by
    induction h with
    | start => exact kept_turns owner earlier messages
    | act _ hp hw ih => exact ih.answered hp hw
    | env _ he _ => exact he.elim
  constructor
  · intro hall
    refine Bool.eq_false_iff.mpr fun hcrossed => ?_
    obtain ⟨i, e, hdropped⟩ := hkept.crossed.mpr hcrossed
    exact hall.not_dropped i e hdropped
  · intro hcrossed
    refine ⟨hkept.kept, fun i e hdropped => ?_⟩
    have htrue := hkept.crossed.mp ⟨i, e, hdropped⟩
    rw [hcrossed] at htrue
    cases htrue

/-- Two questions, asked before either is answered. -/
def followUp (_ : Fin 2) : List (Chat.InputRole × List ContentBlock) := [(.user, [.text "hello"])]

/-- The rows of both questions. -/
def questions : List Row :=
  [{ role := .user, content := [.text "hello"], seq := 0, id := "u" },
    { role := .user, content := [.text "hello"], seq := 1, id := "v" }]

/-- The answers are generated, and the one is stored. -/
theorem reach_followUp : ∃ c : Pool (Fin 2) iface Empty Outcome Store,
    Pool.Reach (fun _ => Serves "alice") (fun _ _ => False) (turns "alice" [] followUp) c ∧
      Sound c.store.rows ∧ c.store.rows.map (·.id) = ["u", "v", "a"] ∧
      c.store.crossed = false ∧ endsInAnswer c.store.rows = true ∧
        c.prog 1 = .ask (.answer (Generated.said ⟨"hi", "groq", {}⟩))
          fun answer => .ret (settled answer) := by
  have hstart : Pool.Reach (fun _ => Serves "alice") (fun _ _ => False)
      (turns "alice" [] followUp) (turns "alice" [] followUp) := .start
  have hfirst := Pool.Reach.act hstart (i := 0) rfl (.stored ["u"] (by decide) rfl
    (show appendAll _ _ _ = .ok (questions.take 1) from rfl))
  have hsecond := Pool.Reach.act hfirst (i := 1) rfl (.stored ["v"] (by decide) rfl
    (show appendAll _ _ _ = .ok questions from rfl))
  have hgenerated := Pool.Reach.act hsecond (i := 0) rfl (.generated (some ⟨"hi", "groq", {}⟩))
  have hboth := Pool.Reach.act hgenerated (i := 1) rfl (.generated (some ⟨"hi", "groq", {}⟩))
  have hanswered := Pool.Reach.act hboth (i := 0) rfl (.answered "a" (by decide))
  exact ⟨_, hanswered, rfl, rfl, rfl, rfl, rfl⟩

theorem nothingLost_followUp : ∃ c : Pool (Fin 2) iface Empty Outcome Store,
    NothingLost c ∧ endsInAnswer c.store.rows = true := by
  obtain ⟨c, hreach, -, -, hcrossed, htail, -⟩ := reach_followUp
  exact ⟨c, (nothingLost_iff "alice" [] followUp hreach).mpr hcrossed, htail⟩

/-- The answer to the second question comes behind the answer to the first. -/
theorem not_nothingLost : ¬ ∀ (ι : Type) (_ : DecidableEq ι) (owner : String) (earlier : List Op)
    (messages : ι → List (Chat.InputRole × List ContentBlock))
    (c : Pool ι iface Empty Outcome Store),
    Pool.Reach (fun _ => Serves owner) (fun _ _ => False) (turns owner earlier messages) c →
      NothingLost c := by
  intro h
  obtain ⟨c, hreach, hsound, hids, -, htail, hasks⟩ := reach_followUp
  have hfresh : "b" ∉ c.store.rows.map (·.id) := by
    rw [hids]
    decide
  have hlost := h (Fin 2) inferInstance "alice" [] followUp _
    (Pool.Reach.act hreach (i := 1) hasks (.answered "b" hfresh))
  refine hlost.not_dropped 1 (.violation .consecutiveAssistants) ?_
  rw [transact_said hsound _ hfresh, if_pos htail]
  exact Function.update_self (1 : Fin 2) _ c.prog

end

end Turns

end LlmGateway
