import LlmGateway.Providers.Types
import LlmGateway.Text.Lines
import Mathlib.Algebra.Order.Ring.Rat
import Mathlib.Tactic.Linarith

/-!
# The events of a provider's stream

`_stream_events`: a response is read line by line, the `data:` fields are put
together up to a blank line, and what they make is handed on until `[DONE]`. Next
to that runs the clock: a line has to come before a deadline, and only a `data:`
line moves it.

The lines are those of `str.splitlines`, which ends a line at more characters than
an event stream does. JSON may hold some of them in its strings as they are, and a
payload that does is cut there.
-/

namespace LlmGateway

namespace Providers

namespace Events

open Text

/-! ## Reading the lines -/

/-- `"data:"`. -/
def dataField : List Char := ['d', 'a', 't', 'a', ':']

/-- `"[DONE]"`. -/
def sentinel : List Char := ['[', 'D', 'O', 'N', 'E', ']']

/-- `raw_line.rstrip("\r\n")`. -/
def rstripEol (line : List Char) : List Char :=
  (line.reverse.dropWhile fun c => c = '\r' || c = '\n').reverse

/-- How the events end. -/
inductive End (E : Type) where
  /-- The generator returns. -/
  | done
  /-- The idle timeout. -/
  | stalled
  /-- A transport error, or a response that is one. -/
  | failed (fault : E)
  deriving DecidableEq, Repr

section

variable {E : Type}

/-- What is raised, by an adapter of that name. -/
def End.raised (provider model : String) (parseError : E → ProviderError) :
    End E → Option ProviderError
  | .done => none
  | .stalled => some
    { kind := .unavailable, provider, model
      message := "idle stall: no data from provider within the timeout" }
  | .failed fault => some (parseError fault)

/-- The loop, between two lines. -/
structure Loop (E : Type) where
  deadline : Seconds
  dataLines : List (List Char) := []
  yielded : List (List Char) := []
  ended : Option (End E) := none

/-- What `lines.__anext__()` comes to. -/
inductive Coming (E : Type) where
  | line (raw : List Char)
  /-- `StopAsyncIteration`. -/
  | stop
  | fault (fault : E)

/-- One turn of the loop: what it waits for, and what the clock says. -/
structure Tick (E : Type) where
  coming : Coming E
  /-- At the top of the loop. -/
  top : Seconds
  /-- When what is waited for is there. -/
  arrival : Seconds
  /-- Once the loop goes on. -/
  now : Seconds

/-- The end of an event. -/
def Loop.flush (loop : Loop E) : Loop E :=
  if loop.dataLines = [] then loop
  else
    let payload := ['\n'].intercalate loop.dataLines
    if payload = sentinel then { loop with dataLines := [], ended := some .done }
    else { loop with dataLines := [], yielded := loop.yielded ++ [payload] }

/-- One line. -/
def Loop.take (idle now : Seconds) (loop : Loop E) (raw : List Char) : Loop E :=
  let line := rstripEol raw
  if line.head? = some ':' then loop
  else if dataField.isPrefixOf line then
    { loop with
      deadline := now + idle
      dataLines := loop.dataLines ++ [lstrip (line.drop dataField.length)] }
  else if line = [] then loop.flush
  else loop

/-- One turn. What is there only at the deadline comes too late. -/
def Loop.step (idle : Seconds) (loop : Loop E) (tick : Tick E) : Loop E :=
  if loop.ended.isSome then loop
  else if loop.deadline - tick.top ≤ 0 then { loop with ended := some .stalled }
  else if loop.deadline ≤ tick.arrival then { loop with ended := some .stalled }
  else match tick.coming with
    | .line raw => loop.take idle tick.now raw
    | .stop => { loop.flush with ended := some .done }
    | .fault fault => { loop with ended := some (.failed fault) }

/-- What turns make of the loop. -/
def Loop.run (idle : Seconds) (loop : Loop E) (ticks : List (Tick E)) : Loop E :=
  ticks.foldl (Loop.step idle) loop

/-- What opening the stream comes to. -/
inductive Opening (E : Type) where
  | failed (fault : E)
  | answered (statusCode : ℕ) (response : E)

/-- **`_stream_events`**, of a stream that is opened at `start`. -/
def streamEvents (opening : Opening E) (idle start : Seconds) (ticks : List (Tick E)) : Loop E :=
  match opening with
  | .failed fault => { deadline := start, ended := some (.failed fault) }
  | .answered statusCode response =>
    if 400 ≤ statusCode then { deadline := start, ended := some (.failed response) }
    else Loop.run idle { deadline := start + idle } ticks

theorem streamEvents_of_lt {statusCode : ℕ} (response : E) (hstatus : statusCode < 400)
    (idle start : Seconds) (ticks : List (Tick E)) :
    streamEvents (.answered statusCode response) idle start ticks =
      Loop.run idle { deadline := start + idle } ticks := if_neg (Nat.not_le.mpr hstatus)

/-! ## The clock -/

/-- A line that says a fragment of an event. -/
def Tick.saysData (tick : Tick E) : Bool :=
  match tick.coming with
  | .line raw => dataField.isPrefixOf (rstripEol raw)
  | .stop | .fault _ => false

/-- When the last of the `data:` lines was there, or else the beginning. -/
def lastData (start : Seconds) (ticks : List (Tick E)) : Seconds :=
  ((ticks.filter (·.saysData)).getLast?.map (·.now)).getD start

theorem lastData_concat (start : Seconds) (ticks : List (Tick E)) (tick : Tick E) :
    lastData start (ticks ++ [tick]) =
      if tick.saysData then tick.now else lastData start ticks := by
  unfold lastData
  rw [List.filter_append, List.filter_singleton]
  by_cases hdata : tick.saysData
  · rw [hdata, cond_true, if_pos rfl, List.getLast?_concat]
    rfl
  · rw [eq_false_of_ne_true hdata, cond_false, if_neg Bool.false_ne_true, List.append_nil]

section

variable {idle start now : Seconds} {loop : Loop E} {tick : Tick E}

@[simp] theorem deadline_flush : loop.flush.deadline = loop.deadline := by
  unfold Loop.flush
  split
  · rfl
  · dsimp only
    split <;> rfl

/-- **Only a `data:` line moves the deadline.** -/
theorem deadline_take (raw : List Char) :
    (loop.take idle now raw).deadline =
      if dataField.isPrefixOf (rstripEol raw) then now + idle else loop.deadline := by
  unfold Loop.take
  dsimp only
  by_cases hcomment : (rstripEol raw).head? = some ':'
  · -- A comment is not a field.
    have hdata : dataField.isPrefixOf (rstripEol raw) = false := by
      cases hline : rstripEol raw with
      | nil => rfl
      | cons c rest =>
        rw [hline] at hcomment
        obtain rfl := Option.some.inj hcomment
        rfl
    rw [if_pos hcomment, hdata]
    rfl
  · rw [if_neg hcomment]
    by_cases hdata : dataField.isPrefixOf (rstripEol raw)
    · rw [if_pos hdata, if_pos hdata]
    · rw [if_neg hdata, if_neg hdata]
      split
      · exact deadline_flush
      · rfl

/-- A line leaves the loop going on or, with `[DONE]`, at its end. -/
theorem ended_flush (h : loop.ended = none) :
    loop.flush.ended = none ∨ loop.flush.ended = some .done := by
  unfold Loop.flush
  split
  · exact .inl h
  · dsimp only
    split
    · exact .inr rfl
    · exact .inl h

theorem ended_take (idle now : Seconds) (h : loop.ended = none) (raw : List Char) :
    (loop.take idle now raw).ended = none ∨ (loop.take idle now raw).ended = some .done := by
  unfold Loop.take
  dsimp only
  split
  · exact .inl h
  · split
    · exact .inl h
    · split
      · exact ended_flush h
      · exact .inl h

/-- One turn of a loop that goes on. -/
theorem step_of_none (idle : Seconds) (tick : Tick E) (h : loop.ended = none) :
    loop.step idle tick = { loop with ended := some .stalled } ∧
        (loop.deadline ≤ tick.top ∨ loop.deadline ≤ tick.arrival) ∨
      loop.step idle tick = (match tick.coming with
        | .line raw => loop.take idle tick.now raw
        | .stop => { loop.flush with ended := some .done }
        | .fault fault => { loop with ended := some (.failed fault) }) ∧
        tick.top < loop.deadline ∧ tick.arrival < loop.deadline := by
  unfold Loop.step
  rw [h]
  by_cases htop : loop.deadline - tick.top ≤ 0
  · exact .inl ⟨by simp [htop], .inl (by linarith)⟩
  · by_cases harrival : loop.deadline ≤ tick.arrival
    · exact .inl ⟨by simp [htop, harrival], .inr harrival⟩
    · exact .inr ⟨by simp [htop, harrival], by linarith, by linarith⟩

theorem step_of_some (h : loop.ended.isSome) : loop.step idle tick = loop := if_pos h

theorem run_of_some (h : loop.ended.isSome) (ticks : List (Tick E)) :
    loop.run idle ticks = loop := by
  induction ticks with
  | nil => rfl
  | cons tick ticks ih => rw [Loop.run, List.foldl_cons, step_of_some h]; exact ih

theorem run_cons (ticks : List (Tick E)) :
    loop.run idle (tick :: ticks) = (loop.step idle tick).run idle ticks := rfl

theorem run_concat (ticks : List (Tick E)) :
    loop.run idle (ticks ++ [tick]) = (loop.run idle ticks).step idle tick := by
  simp [Loop.run]

/-- **The deadline of a run** is the idle time behind the last `data:` line. -/
theorem deadline_run (ticks : List (Tick E))
    (h : (Loop.run idle { deadline := start + idle } ticks : Loop E).ended = none) :
    (Loop.run idle { deadline := start + idle } ticks : Loop E).deadline =
      lastData start ticks + idle := by
  induction ticks using List.reverseRecOn with
  | nil => rfl
  | append_singleton ticks tick ih =>
    rw [run_concat] at h ⊢
    generalize hloop : (Loop.run idle { deadline := start + idle } ticks : Loop E) = loop at h ih ⊢
    -- A loop that had ended before would have stayed so.
    have hgoes : loop.ended = none := by
      by_contra hended
      rw [step_of_some (Option.isSome_iff_ne_none.mpr hended)] at h
      exact hended h
    have hbefore := ih hgoes
    rcases step_of_none idle tick hgoes with ⟨hstep, -⟩ | ⟨hstep, -⟩
    · rw [hstep] at h
      cases h
    · rw [hstep] at h ⊢
      rw [lastData_concat]
      unfold Tick.saysData
      cases hcoming : tick.coming with
      | line raw =>
        dsimp only
        rw [deadline_take, hbefore]
        split <;> rfl
      | stop =>
        rw [hcoming] at h
        cases h
      | fault fault =>
        rw [hcoming] at h
        cases h

/-- **When a stream stalls**: at the first turn that begins, or is over, no sooner than the idle
time behind the last `data:` line. -/
theorem stalled_iff (before : List (Tick E)) (tick : Tick E)
    (h : (Loop.run idle { deadline := start + idle } before : Loop E).ended = none) :
    (Loop.run idle { deadline := start + idle } (before ++ [tick]) : Loop E).ended =
        some .stalled ↔
      lastData start before + idle ≤ tick.top ∨ lastData start before + idle ≤ tick.arrival := by
  rw [run_concat, ← deadline_run before h]
  generalize (Loop.run idle { deadline := start + idle } before : Loop E) = loop at h ⊢
  rcases step_of_none idle tick h with ⟨hstep, hlate⟩ | ⟨hstep, htop, harrival⟩
  · rw [hstep]
    exact iff_of_true rfl hlate
  · refine iff_of_false (fun hended => ?_) (by rintro (hle | hle) <;> linarith)
    rw [hstep] at hended
    cases hcoming : tick.coming with
    | line raw =>
      rw [hcoming] at hended
      rcases ended_take idle tick.now h raw with hnone | hdone
      · exact nomatch hnone.symm.trans hended
      · exact nomatch hdone.symm.trans hended
    | stop =>
      rw [hcoming] at hended
      cases hended
    | fault fault =>
      rw [hcoming] at hended
      cases hended

end

end

end Events

end Providers

end LlmGateway
