import LlmGateway.Effects.Play
import LlmGateway.Providers.Answers
import LlmGateway.Routing.Laws

/-!
# Blank answers on both paths

A text that came whole is judged by what stripping leaves of it, a text that
came in pieces by how many characters were delivered.
-/

namespace LlmGateway

namespace Router

namespace Stream

open Effects Providers Text Json

/-! ## A stream read to its end -/

/-- The provider hands over `chunks` and stops, the consumer takes what it is given, and closing
the stream raises nothing. -/
def Smooth (chunks : List StreamChunk) : Event iface → Prop
  | ⟨.stream _ _ _, a⟩ => a = .ok (chunks, .stopped)
  | ⟨.yield _, a⟩ => a = .next
  | ⟨.aclose, a⟩ => a = .ok ()
  | _ => True

/-- The stream was opened. -/
def opens : Event iface → Bool
  | ⟨.stream _ _ _, _⟩ => true
  | _ => false

/-- **A finished stream**: it was opened and read smoothly to its end. -/
structure Finished (chunks : List StreamChunk) (tr : List (Event iface)) : Prop where
  smooth : ∀ e ∈ tr, Smooth chunks e
  opened : ∃ e ∈ tr, opens e = true

/-- The world that answers smoothly and remembers whether the stream was opened. -/
def smoothly (chunks : List StreamChunk) : World iface Bool :=
  fun s q a s' => Smooth chunks ⟨q, a⟩ ∧ s' = (opens ⟨q, a⟩ || s)

theorem accepts_smoothly {chunks : List StreamChunk} {tr : List (Event iface)} {s : Bool}
    (h : ∀ e ∈ tr, Smooth chunks e) : (smoothly chunks).Accepts s tr (tr.any opens || s) := by
  induction tr generalizing s with
  | nil => exact .nil s
  | cons e tr ih =>
    have hrest := ih (s := opens e || s) fun e' he' => h e' (List.mem_cons_of_mem e he')
    rw [← Bool.or_assoc, Bool.or_comm (tr.any opens)] at hrest
    exact .cons ⟨h e List.mem_cons_self, rfl⟩ hrest

/-! ## What the loop counts -/

/-- The text the chunks join to. -/
def textOf (chunks : List StreamChunk) : String := String.join (chunks.map (·.delta))

theorem textOf_cons (chunk : StreamChunk) (chunks : List StreamChunk) :
    textOf (chunk :: chunks) = chunk.delta ++ textOf chunks := by
  simp [textOf]

variable {chunks : List StreamChunk}

theorem wp_firstTokenMs_smoothly {attemptStarted : Seconds} {t : Tried} {s : Bool}
    {Q : Except Exn Int → Bool → Prop} (h : ∀ ms, Q (.ok ms) s) :
    wp (smoothly chunks) (firstTokenMs attemptStarted t) Q s := by
  unfold firstTokenMs
  split
  · exact h _
  · simp only [elapsedMs, wp_bind, wp_now]
    rintro time _ ⟨-, rfl⟩
    exact h _

/-- **The loop counts the characters of the text**, however it is cut. -/
theorem wp_pump_smoothly {attemptStarted : Seconds} (pending : List StreamChunk) {t : Tried}
    {s : Bool} : wp (smoothly chunks) (pump attemptStarted pending t) (fun r s' =>
      ∃ t', r = .ok t' ∧ t'.deliveredChars = t.deliveredChars + (textOf pending).length ∧
        s' = s) s := by
  induction pending generalizing t with
  | nil => exact ⟨t, rfl, rfl, rfl⟩
  | cons chunk pending ih =>
    simp only [pump, wp_bind, wp_mapError]
    refine wp_firstTokenMs_smoothly fun ms => ?_
    dsimp only
    split
    next hblank =>
      -- An empty delta adds nothing to the text either.
      rw [textOf_cons, hblank, String.empty_append]
      exact ih
    next =>
      simp only [wp_bind, wp_mapError, wp_yieldEvent]
      rintro _ _ ⟨rfl, rfl⟩
      refine wp_mono _ ih ?_
      rintro r s' ⟨t', rfl, ht', rfl⟩
      refine ⟨t', rfl, ?_, rfl⟩
      dsimp only at ht'
      have hread : (t.read chunk ms).deliveredChars = t.deliveredChars := rfl
      rw [textOf_cons, String.length_append, ht', hread]
      omega

theorem wp_drain_smoothly {spec : ModelSpec} {attemptStarted : Seconds} {t : Tried} :
    wp (smoothly chunks) (drain spec attemptStarted chunks .stopped t) (fun r _ =>
      ∃ t', r = .ok t' ∧ t'.deliveredChars = t.deliveredChars + (textOf chunks).length) true := by
  simp only [drain, wp_bind, wp_attempt]
  refine wp_mono _ (wp_pump_smoothly chunks) ?_
  rintro r s' ⟨t', rfl, ht', rfl⟩
  simp only [atEnd, endExn, Prog.pure_eq, wp_ret, wp_bind, wp_mapError, wp_aclose]
  rintro _ _ ⟨rfl, rfl⟩
  exact ⟨t', rfl, ht'⟩

/-! ## What the `try` block makes of it -/

/-- The `try` block ended in an `EmptyResponse`. -/
def FailsAsEmpty (r : Except (Exn × Tried) Tries) : Prop :=
  ∃ e t, r = .error (e, t) ∧ isEmptyResponse e

theorem wp_tryAttempt_smoothly {cfg : Config} {attemptStarted : Seconds} {v : Visit}
    {resolved : ResolvedKey} :
    wp (smoothly chunks) (tryAttempt cfg attemptStarted v resolved)
      (fun r s => s = true → (FailsAsEmpty r ↔ textOf chunks = "")) false := by
  have hreserve : ∀ report, wp (smoothly chunks) (takeReservation cfg v.spec resolved report)
      (fun _ s => s = false) false := by
    intro report
    unfold takeReservation
    split
    · simp only [wp_bind, wp_uuid4, wp_reserve]
      rintro u _ ⟨-, rfl⟩ r _ ⟨-, rfl⟩
      cases r with
      | error e => rfl
      | ok decision =>
        dsimp only
        split <;> rfl
    · rfl
  -- An attempt that fails before its stream opens has not set the state.
  simp only [tryAttempt, wp_bind, wp_mapError, wp_render]
  rintro (e | ⟨payload, report⟩) _ ⟨-, rfl⟩
  · exact fun h => absurd h Bool.false_ne_true
  refine wp_mono _ (hreserve report) ?_
  rintro (e | reservation | refusal) s rfl
  · exact fun h => absurd h Bool.false_ne_true
  · simp only [wp_bind, wp_mapError, wp_yieldEvent, wp_stream]
    rintro _ _ ⟨rfl, rfl⟩ _ _ ⟨rfl, rfl⟩
    refine wp_mono _ wp_drain_smoothly ?_
    rintro r s ⟨t, rfl, ht⟩
    have hcount : t.deliveredChars = 0 ↔ textOf chunks = "" := by
      rw [ht, Nat.zero_add, String.length_eq_zero_iff]
    dsimp only
    split
    next hzero =>
      intro _
      exact ⟨fun _ => hcount.mp hzero, fun _ => ⟨_, t, rfl, rfl⟩⟩
    next hzero =>
      intro _
      constructor
      · rintro ⟨e, t', he, -⟩
        cases he
      · intro htext
        exact absurd (hcount.mpr htext) hzero
  · exact fun h => absurd h Bool.false_ne_true

/-- **A finished stream fails as empty exactly when nothing was delivered.** -/
theorem failsAsEmpty_iff {cfg : Config} {attemptStarted : Seconds} {v : Visit}
    {resolved : ResolvedKey} {tr : List (Event iface)} {r : Except (Exn × Tried) Tries}
    (h : (tryAttempt cfg attemptStarted v resolved).Runs tr r) (hf : Finished chunks tr) :
    FailsAsEmpty r ↔ textOf chunks = "" := by
  have hopened : (tr.any opens || false) = true := by
    rw [Bool.or_false, List.any_eq_true]
    exact hf.opened
  exact wp_sound _ wp_tryAttempt_smoothly h (accepts_smoothly hf.smooth) hopened

/-! ## The two paths together -/

variable {F : Type} (readings : Readings F) {text : String}

/-- **Judged alike**: however `text` is cut into chunks, a stream of them that was read to its end
fails as empty exactly when each adapter rejects the body that carries the text. -/
def Alike (text : String) : Prop :=
  ∀ {cfg attemptStarted v resolved chunks tr r},
    (tryAttempt cfg attemptStarted v resolved).Runs tr r → Finished chunks tr →
    textOf chunks = text → ∀ (adapter : Adapter) (status : Nat) (model : String) (body : Value F),
    adapter.Carries readings body text →
      (FailsAsEmpty r ↔ RejectsAsEmpty (adapter.read readings status model body))

/-- The obliging environment, with a stream of one chunk. -/
def inOneChunk (text : String) (_ : Unit) : (q : Ask) → Ans q × Unit
  | .stream _ _ _ => (.ok ([{ delta := text }], .stopped), ())
  | q => (oblige q, ())

/-- What it answers is smooth. -/
theorem smooth_of_mem_play {ε α : Type} {p : Prog iface ε α} {e : Event iface}
    (h : e ∈ (p.play (inOneChunk text) ()).1) : Smooth [{ delta := text }] e := by
  obtain ⟨⟨⟩, hans⟩ := Prog.ans_of_mem_play h
  obtain ⟨q, a⟩ := e
  dsimp only at hans
  subst hans
  cases q <;> first | rfl | trivial

/-- An attempt without a tracker. -/
def oneAttempt : Prog iface (Exn × Tried) Tries :=
  tryAttempt { quota := false } 0 { spec := groq, walk := {} } (sharedKey "groq")

theorem finished_oneAttempt (text : String) :
    Finished [{ delta := text }] (oneAttempt.play (inOneChunk text) ()).1 where
  smooth := fun _ he => smooth_of_mem_play he
  -- Rendered and announced first, then opened.
  opened := ⟨⟨.stream groq "payload" "sk", .ok ([{ delta := text }], .stopped)⟩,
    List.mem_cons_of_mem _ (List.mem_cons_of_mem _ List.mem_cons_self), rfl⟩

/-- The body of a whole answer, in the common dialect. -/
def bodyOf (text : String) : Value F :=
  .obj [("choices", .arr [.obj [("message", .obj [("content", .str text)])]])]

theorem carries_bodyOf (text : String) : Adapter.groq.Carries readings (bodyOf text) text :=
  ⟨_, _, ⟨rfl, nofun, rfl⟩⟩

variable {readings}

/-- **A text of nothing but white space is delivered on one path and refused on the other.** -/
theorem Alike.blank (h : Alike readings text) (hblank : strip text.toList = []) : text = "" := by
  have hruns := Prog.play_runs (inOneChunk text) () oneAttempt
  have hfinished := finished_oneAttempt text
  have htext : textOf [{ delta := text }] = text := by simp [textOf]
  have hreject : RejectsAsEmpty (Adapter.groq.read readings 200 "llama" (bodyOf text)) :=
    (Adapter.rejects_iff (carries_bodyOf readings text)).mpr hblank
  have hfails := (h hruns hfinished htext .groq 200 "llama" (bodyOf text)
    (carries_bodyOf readings text)).mpr hreject
  exact htext ▸ (failsAsEmpty_iff hruns hfinished).mp hfails

/-- **Blank answers are judged alike only where there is nothing to deliver**: on the texts that
are empty or hold a character that is no white space. -/
theorem alike_iff (readings : Readings F) (text : String) :
    Alike readings text ↔ text = "" ∨ ∃ c ∈ text.toList, isSpace c = false := by
  have hblank : strip text.toList = [] ↔ ¬ ∃ c ∈ text.toList, isSpace c = false := by
    rw [strip_eq_nil_iff]
    push Not
    simp
  constructor
  · intro h
    rw [or_iff_not_imp_right, ← hblank]
    exact h.blank
  · intro htext cfg attemptStarted v resolved chunks tr r hruns hfinished hjoin adapter status model
      body hcarries
    rw [failsAsEmpty_iff hruns hfinished, Adapter.rejects_iff hcarries, hjoin, hblank]
    constructor
    · rintro rfl ⟨c, hc, -⟩
      simp at hc
    · intro hnone
      exact htext.resolve_right hnone

/-- One space is delivered, stored, and never failed over from. -/
theorem not_alike : ¬ Alike (F := Unit)
    { isZero := fun _ => true, str := fun _ => "", classify := fun _ _ model =>
        { kind := .unavailable, message := "upstream", provider := "openrouter", model } } " " := by
  intro h
  exact absurd (h.blank (by decide)) (by decide)

end Stream

end Router

end LlmGateway
