import LlmGateway.Memory.Cutting

/-!
# What fitting leaves of a history

The history behind a number of dropped turns, said in its own terms: who
survives, which one message carries the marker, and what it costs. `fit`
returns one of these, and the first that is within the budget.
-/

namespace LlmGateway

namespace Fitting

open Speech

/-! ## Survivors -/

section

variable {α β : Type}

/-- The entries of a list whose indices are not dropped, and those whose indices are. -/
def survivors (xs : List α) (dropped : List Nat) : List α :=
  (xs.zipIdx.filter fun p => p.2 ∉ dropped).map (·.1)

def gone (xs : List α) (dropped : List Nat) : List α :=
  (xs.zipIdx.filter fun p => p.2 ∈ dropped).map (·.1)

/-- Who is alive once some indices have been dropped. -/
def aliveAfter (n : Nat) (dropped : List Nat) : List Bool :=
  (List.range n).map fun index => decide (index ∉ dropped)

theorem aliveAfter_nil (n : Nat) : aliveAfter n [] = List.replicate n true := by
  refine List.ext_getElem (by simp [aliveAfter]) fun index _ _ => ?_
  simp [aliveAfter]

/-- Dropping an index is clearing its flag. -/
theorem aliveAfter_set (n : Nat) (dropped : List Nat) (index : Nat) :
    (aliveAfter n dropped).set index false = aliveAfter n (dropped ++ [index]) := by
  refine List.ext_getElem (by simp [aliveAfter]) fun other h _ => ?_
  rw [List.getElem_set]
  by_cases heq : index = other
  · simp [aliveAfter, heq]
  · have hne : ¬ other = index := fun h => heq h.symm
    simp [aliveAfter, heq, hne]

theorem aliveAfter_foldl (n : Nat) (group dropped : List Nat) :
    group.foldl (fun alive index => alive.set index false) (aliveAfter n dropped) =
      aliveAfter n (dropped ++ group) := by
  induction group generalizing dropped with
  | nil => rw [List.append_nil, List.foldl_nil]
  | cons index group ih =>
    rw [List.foldl_cons, aliveAfter_set, ih, List.append_assoc, List.singleton_append]

theorem filterMap_ite (c : α → Prop) [DecidablePred c] (f : α → β) (xs : List α) :
    xs.filterMap (fun x => if c x then some (f x) else none) =
      (xs.filter fun x => decide (c x)).map f := by
  induction xs with
  | nil => rfl
  | cons x xs ih =>
    by_cases h : c x
    · simp [h, ih]
    · simp [h, ih]

theorem modify_eq_set_of_getElem? {xs : List α} {index : Nat} {x : α} (f : α → α)
    (h : xs[index]? = some x) : xs.modify index f = xs.set index (f x) := by
  refine List.ext_getElem? fun other => ?_
  rw [List.getElem?_modify, List.getElem?_set]
  by_cases heq : index = other
  · subst heq
    obtain ⟨hlt, hx⟩ := List.getElem?_eq_some_iff.mp h
    simp [hlt, hx]
  · simp [heq]

theorem keeping_aliveAfter (state : Bool) (xs : List α) (dropped : List Nat) :
    keeping state (aliveAfter xs.length dropped) xs =
      (xs.zipIdx.filter fun p => decide (p.2 ∉ dropped) = state).map (·.1) := by
  have hzip : xs.zip (aliveAfter xs.length dropped) =
      xs.zipIdx.map fun p => (p.1, decide (p.2 ∉ dropped)) := by
    rw [List.zipIdx_eq_zip_range', ← List.range_eq_range', aliveAfter, List.zip_map_right]
    rfl
  rw [keeping, hzip, List.filterMap_map]
  exact filterMap_ite (fun p : α × Nat => decide (p.2 ∉ dropped) = state) Prod.fst xs.zipIdx

theorem keeping_true (xs : List α) (dropped : List Nat) :
    keeping true (aliveAfter xs.length dropped) xs = survivors xs dropped := by
  rw [keeping_aliveAfter]
  simp [survivors]

theorem keeping_false (xs : List α) (dropped : List Nat) :
    keeping false (aliveAfter xs.length dropped) xs = gone xs dropped := by
  rw [keeping_aliveAfter]
  simp [gone]

theorem survivors_map (f : α → β) (xs : List α) (dropped : List Nat) :
    survivors (xs.map f) dropped = (survivors xs dropped).map f := by
  simp [survivors, List.zipIdx_map, List.filter_map, Function.comp_def]

theorem survivors_nil (xs : List α) : survivors xs [] = xs := by
  rw [survivors, List.filter_eq_self.mpr (by simp)]
  exact List.zipIdx_map_fst 0 xs

end

/-! ## The history behind dropped turns -/

section

variable {M : Type} [Speech M]

/-- The message that tells of an omission: the first that is not the system's. -/
def markerPlace (messages : List M) : Nat :=
  if messages.head?.map role = some .system ∧ 1 < messages.length then 1 else 0

/-- A history in which `omitted` messages are told to be missing. -/
def marked (messages : List M) (omitted : Nat) : List M :=
  messages.modify (markerPlace messages) fun message => withOmissionMarker message omitted

/-- **The history behind dropped messages**: what the dropped ones told is told still. -/
def trimmed (history : List M) (dropped : List Nat) : List M :=
  if dropped = [] then history
  else marked (survivors history dropped)
    (dropped.length + ((gone history dropped).map omissions).sum)

/-- What a history costs. -/
def price (project : M → ByHash → String) (estimator : String → Int) (messages : List M)
    (attachments : ByHash) : Int :=
  (messages.map fun message => cost project estimator message attachments).sum

/-- `_apply_marker` is the history behind what was dropped, and its costs. -/
theorem applyMarker_eq (project : M → ByHash → String) (estimator : String → Int)
    (history : List M) (attachments : ByHash) (dropped : List Nat) :
    applyMarker project estimator history (aliveAfter history.length dropped)
        (history.map fun message => cost project estimator message attachments) attachments
        dropped.length =
      (trimmed history dropped,
        (trimmed history dropped).map fun message => cost project estimator message attachments) := by
  have hcosts : keeping true (aliveAfter history.length dropped)
      (history.map fun message => cost project estimator message attachments) =
        (survivors history dropped).map fun message =>
          cost project estimator message attachments := by
    rw [← survivors_map, ← keeping_true, List.length_map]
  unfold applyMarker
  rw [hcosts, keeping_true, keeping_false]
  by_cases hnone : dropped = []
  · subst hnone
    simp [trimmed, survivors_nil]
  · have hlength : dropped.length ≠ 0 := fun h => hnone (List.length_eq_zero_iff.mp h)
    dsimp only
    rw [if_neg hlength, trimmed, if_neg hnone, marked, markerPlace]
    generalize htarget : (if (survivors history dropped).head?.map role = some .system ∧
      1 < (survivors history dropped).length then 1 else 0) = target
    cases hat : (survivors history dropped)[target]? with
    | none =>
      have hout : (survivors history dropped).length ≤ target := List.getElem?_eq_none_iff.mp hat
      rw [List.modify_eq_self hout]
    | some survivor =>
      dsimp only
      rw [modify_eq_set_of_getElem? _ hat, List.map_set]

/-- The loop of `_drop_oldest_turns` ends with the history behind some number of groups: behind no
smaller number of them is it within the budget, and behind this one only if there are more. -/
theorem dropGroups_eq (project : M → ByHash → String) (estimator : String → Int)
    (history : List M) (attachments : ByHash) (budget : Int) (groups : List (List Nat))
    (dropped : List Nat)
    (hover : budget < price project estimator (trimmed history dropped) attachments) :
    ∃ k ≤ groups.length,
      dropGroups project estimator history
          (history.map fun message => cost project estimator message attachments) attachments budget
          (aliveAfter history.length dropped) dropped.length groups =
        (trimmed history (dropped ++ (groups.take k).flatten),
          (trimmed history (dropped ++ (groups.take k).flatten)).map fun message =>
            cost project estimator message attachments,
          (dropped ++ (groups.take k).flatten).length) ∧
      (∀ j < k, budget < price project estimator
        (trimmed history (dropped ++ (groups.take j).flatten)) attachments) ∧
      (price project estimator (trimmed history (dropped ++ (groups.take k).flatten)) attachments ≤
        budget ∨ k = groups.length) := by
  induction groups generalizing dropped with
  | nil =>
    refine ⟨0, le_refl _, ?_, fun j hj => absurd hj (Nat.not_lt_zero j), .inr rfl⟩
    unfold dropGroups
    rw [applyMarker_eq]
    simp
  | cons group groups ih =>
    unfold dropGroups
    dsimp only
    rw [aliveAfter_foldl, ← List.length_append, applyMarker_eq]
    dsimp only
    split
    next hfits =>
      refine ⟨1, by simp, by simp, fun j hj => ?_, .inl ?_⟩
      · obtain rfl : j = 0 := by omega
        simpa using hover
      · rw [List.take_one, List.head?_cons, Option.toList_some, List.flatten_singleton]
        exact hfits
    next hover' =>
      obtain ⟨k, hk, heq, hleast, hend⟩ := ih (dropped ++ group) (Int.not_le.mp hover')
      refine ⟨k + 1, by simpa using hk, ?_, fun j hj => ?_, ?_⟩
      · rw [heq]
        simp
      · cases j with
        | zero => simpa using hover
        | succ j =>
          have hj' := hleast j (by omega)
          simpa using hj'
      · refine hend.imp (fun hfits => ?_) fun hall => ?_
        · simpa using hfits
        · rw [List.length_cons, hall]

/-! ## What a fit returns -/

/-- The turns the code may drop, oldest first. -/
def turnsOf (history : List M) : List (List Nat) :=
  droppableGroups history (pinnedIndices history)

/-- The indices in the `k` oldest turns. -/
def oldest (history : List M) (k : Nat) : List Nat := ((turnsOf history).take k).flatten

/-- **What `fit` comes to**: the history behind the smallest number of its turns that is within the
budget, or behind all of them with its documents cut, and an error if that is not enough. -/
theorem fit_cases (project : M → ByHash → String) (estimator : String → Int) (history : List M)
    (attachments : List ResolvedAttachment) (budget : Int) (spec : RenderSpec) :
    ∃ k ≤ (turnsOf history).length,
      (∀ j < k, budget <
        price project estimator (trimmed history (oldest history j)) (byHash attachments)) ∧
      let total := price project estimator (trimmed history (oldest history k)) (byHash attachments)
      let cut := truncateLoop project estimator (trimmed history (oldest history k)) budget
        attachments [] 0 total
      (total ≤ budget ∧ fit project estimator history attachments budget spec .truncate =
          .ok ⟨trimmed history (oldest history k), attachments, (oldest history k).length, 0, total⟩) ∨
        (budget < total ∧ k = (turnsOf history).length ∧ cut.2.2 ≤ budget ∧
          fit project estimator history attachments budget spec .truncate =
            .ok ⟨trimmed history (oldest history k), cut.1, (oldest history k).length, cut.2.1,
              cut.2.2⟩) ∨
        (budget < total ∧ k = (turnsOf history).length ∧ budget < cut.2.2 ∧
          ∃ exc, fit project estimator history attachments budget spec .truncate =
            .error (.contextTooLong exc)) := by
  unfold fit
  dsimp only
  split
  next hfits =>
    exact ⟨0, Nat.zero_le _, fun j hj => absurd hj (Nat.not_lt_zero j), .inl ⟨hfits, rfl⟩⟩
  next hover =>
    have hover' : budget < price project estimator (trimmed history []) (byHash attachments) :=
      Int.not_le.mp hover
    obtain ⟨k, hk, heq, hleast, hend⟩ := dropGroups_eq project estimator history
      (byHash attachments) budget (turnsOf history) [] hover'
    simp only [aliveAfter_nil, List.length_nil, List.nil_append] at heq hleast hend
    unfold dropOldestTurns
    rw [← turnsOf, heq]
    refine ⟨k, hk, hleast, ?_⟩
    split
    next hfits => exact .inl ⟨hfits, rfl⟩
    next hover =>
      have hall := hend.resolve_left hover
      dsimp only
      split
      next hover' => exact .inr (.inr ⟨Int.not_le.mp hover, hall, hover', _, rfl⟩)
      next hfits => exact .inr (.inl ⟨Int.not_le.mp hover, hall, Int.not_lt.mp hfits, rfl⟩)

/-! ## Turns -/

/-- The two messages that are never dropped: a leading system message and the last user message. -/
def Pinned (history : List M) (index : Nat) : Prop :=
  index = 0 ∧ history[0]?.map role = some .system ∨
    history[index]?.map role = some .user ∧
      ∀ later, index < later → history[later]?.map role ≠ some .user

/-- A user's message with its answer right behind it. -/
def Answered (history : List M) (index : Nat) : Prop :=
  history[index]?.map role = some .user ∧ history[index + 1]?.map role = some .assistant

/-- **The droppable turns**, oldest first: everything that is not pinned, a user's message together
with its answer. -/
structure Turns (history : List M) (groups : List (List Nat)) : Prop where
  covers : ∀ index, index ∈ groups.flatten ↔ index < history.length ∧ ¬ Pinned history index
  ordered : groups.flatten.Pairwise (· < ·)
  grouped : ∀ group ∈ groups, ∃ index, group = [index] ∨
    group = [index, index + 1] ∧ Answered history index
  whole : ∀ group ∈ groups, ∀ index ∈ group, Answered history index → index + 1 ∈ group

theorem flatten_bundle (history : List M) : ∀ indices : List Nat,
    (bundle history indices).flatten = indices
  | [] => rfl
  | [index] => rfl
  | index :: next :: rest => by
    unfold bundle
    split
    · rw [List.flatten_cons, flatten_bundle history rest]
      rfl
    · rw [List.flatten_cons, flatten_bundle history (next :: rest)]
      rfl

theorem grouped_bundle (history : List M) : ∀ indices : List Nat, ∀ group ∈ bundle history indices,
    ∃ index, group = [index] ∨ group = [index, index + 1] ∧ Answered history index
  | [], group, hmem => by cases hmem
  | [index], group, hmem => ⟨index, .inl (List.mem_singleton.mp hmem)⟩
  | index :: next :: rest, group, hmem => by
    unfold bundle at hmem
    split at hmem
    next hturn =>
      obtain ⟨huser, rfl, hassistant⟩ := hturn
      rcases List.mem_cons.mp hmem with rfl | hrest
      · exact ⟨index, .inr ⟨rfl, huser, hassistant⟩⟩
      · exact grouped_bundle history rest group hrest
    next =>
      rcases List.mem_cons.mp hmem with rfl | hrest
      · exact ⟨index, .inl rfl⟩
      · exact grouped_bundle history (next :: rest) group hrest

/-- In order, an answer that is there comes right behind what it answers. -/
theorem whole_bundle (history : List M) : ∀ indices : List Nat, indices.Pairwise (· < ·) →
    ∀ group ∈ bundle history indices, ∀ index ∈ group, Answered history index →
      index + 1 ∈ indices → index + 1 ∈ group
  | [], _, group, hmem, _, _, _, _ => by cases hmem
  | [index], _, group, hmem, other, hother, _, hnext => by
    have hgroup : group = [index] := List.mem_singleton.mp hmem
    subst hgroup
    exact hnext
  | index :: next :: rest, hsorted, group, hmem, other, hother, hanswered, hnext => by
    have hbelow : ∀ i ∈ next :: rest, index < i := (List.pairwise_cons.mp hsorted).1
    have htail : (next :: rest).Pairwise (· < ·) := (List.pairwise_cons.mp hsorted).2
    have hrestBelow : ∀ i ∈ rest, next < i := (List.pairwise_cons.mp htail).1
    unfold bundle at hmem
    split at hmem
    next hturn =>
      obtain ⟨-, rfl, hassistant⟩ := hturn
      rcases List.mem_cons.mp hmem with rfl | hrest
      · rcases List.mem_cons.mp hother with rfl | hother
        · simp
        · -- The answer itself is no user's.
          have heq : other = index + 1 := List.mem_singleton.mp hother
          subst heq
          have huser := hanswered.1
          rw [hassistant] at huser
          cases huser
      · have hin : other ∈ rest := by
          rw [← flatten_bundle history rest]
          exact List.mem_flatten.mpr ⟨group, hrest, hother⟩
        have hlt := hrestBelow other hin
        have hmem' : other + 1 ∈ rest := by
          rcases List.mem_cons.mp hnext with heq | hnext
          · omega
          · rcases List.mem_cons.mp hnext with heq | hnext
            · omega
            · exact hnext
        exact whole_bundle history rest (List.pairwise_cons.mp htail).2 group hrest other hother
          hanswered hmem'
    next hturn =>
      rcases List.mem_cons.mp hmem with rfl | hrest
      · have heq : other = index := List.mem_singleton.mp hother
        subst heq
        -- Its answer would be next, and they would be one turn.
        rcases List.mem_cons.mp hnext with hself | hnext
        · omega
        · have hle : next ≤ other + 1 := by
            rcases List.mem_cons.mp hnext with rfl | hnext
            · exact le_refl _
            · exact (hrestBelow _ hnext).le
          have hlt := hbelow next List.mem_cons_self
          exact absurd ⟨hanswered.1, by omega, hanswered.2⟩ hturn
      · have hin : other ∈ next :: rest := by
          rw [← flatten_bundle history (next :: rest)]
          exact List.mem_flatten.mpr ⟨group, hrest, hother⟩
        have hlt := hbelow other hin
        have hmem' : other + 1 ∈ next :: rest := by
          rcases List.mem_cons.mp hnext with heq | hnext
          · omega
          · exact hnext
        exact whole_bundle history (next :: rest) htail group hrest other hother hanswered hmem'

/-- The turns of an ordered list of everything that is not pinned. -/
theorem turns_bundle {history : List M} {indices : List Nat} (hsorted : indices.Pairwise (· < ·))
    (hmem : ∀ index, index ∈ indices ↔ index < history.length ∧ ¬ Pinned history index) :
    Turns history (bundle history indices) where
  covers index := by
    rw [flatten_bundle]
    exact hmem index
  ordered := by
    rw [flatten_bundle]
    exact hsorted
  grouped := grouped_bundle history indices
  whole group hgroup index hindex hanswered := by
    refine whole_bundle history indices hsorted group hgroup index hindex hanswered ?_
    have hassistant := hanswered.2
    obtain ⟨message, hat, -⟩ := Option.map_eq_some_iff.mp hassistant
    obtain ⟨hlt, -⟩ := List.getElem?_eq_some_iff.mp hat
    refine (hmem (index + 1)).mpr ⟨hlt, fun hpinned => ?_⟩
    rcases hpinned with ⟨hzero, -⟩ | ⟨huser, -⟩
    · omega
    · rw [hassistant] at huser
      cases huser

/-! ## What the code pins -/

theorem lastUser_some {history : List M} {index : Nat} (h : lastUser history = some index) :
    history[index]?.map role = some .user ∧
      ∀ later, index < later → history[later]?.map role ≠ some .user := by
  obtain ⟨huser, before, after, hsplit, hbefore⟩ := List.find?_eq_some_iff_append.mp h
  refine ⟨of_decide_eq_true huser, fun later hlater hrole => ?_⟩
  obtain ⟨message, hat, -⟩ := Option.map_eq_some_iff.mp hrole
  obtain ⟨hlt, -⟩ := List.getElem?_eq_some_iff.mp hat
  have hin : later ∈ before ++ index :: after := by
    rw [← hsplit]
    exact List.mem_reverse.mpr (List.mem_range.mpr hlt)
  have hdescending : (before ++ index :: after).Pairwise (· > ·) := by
    rw [← hsplit]
    exact List.pairwise_reverse.mpr List.pairwise_lt_range
  rcases List.mem_append.mp hin with hin | hin
  · have hnot := hbefore later hin
    simp [hrole] at hnot
  · have hsorted := (List.pairwise_append.mp hdescending).2.1
    rcases List.mem_cons.mp hin with rfl | hin
    · omega
    · have hgt := (List.pairwise_cons.mp hsorted).1 later hin
      omega

theorem lastUser_none {history : List M} (h : lastUser history = none) (index : Nat) :
    history[index]?.map role ≠ some .user := by
  intro hrole
  obtain ⟨message, hat, -⟩ := Option.map_eq_some_iff.mp hrole
  obtain ⟨hlt, -⟩ := List.getElem?_eq_some_iff.mp hat
  have hnot := List.find?_eq_none.mp h index (List.mem_reverse.mpr (List.mem_range.mpr hlt))
  simp [hrole] at hnot

theorem head?_map_role (history : List M) :
    history.head?.map role = history[0]?.map role := by
  rw [List.head?_eq_getElem?]

/-- A message that is no user's is a group of its own. -/
theorem bundle_cons {history : List M} {index : Nat}
    (hnone : history[index]?.map role ≠ some .user) (rest : List Nat) :
    bundle history (index :: rest) = [index] :: bundle history rest := by
  cases rest with
  | nil => rfl
  | cons next rest => exact if_neg fun h => hnone h.1

theorem bundle_append {history : List M} (hnone : ∀ index : Nat,
    history[index]?.map role ≠ some .user) (indices more : List Nat) :
    bundle history (indices ++ more) = bundle history indices ++ bundle history more := by
  induction indices with
  | nil => rfl
  | cons index indices ih =>
    rw [List.cons_append, bundle_cons (hnone index), bundle_cons (hnone index), ih,
      List.cons_append]

/-- **The groups the code drops are the turns**, up to the tail it keeps of a history without a
user's message. -/
theorem exists_turns (history : List M) : ∃ groups, Turns history groups ∧
    ∃ more, groups = turnsOf history ++ more := by
  have hsorted : ∀ p : Nat → Bool, ((List.range history.length).filter p).Pairwise (· < ·) :=
    fun p => List.pairwise_lt_range.filter p
  cases hlast : lastUser history with
  | some last =>
    obtain ⟨huser, hlater⟩ := lastUser_some hlast
    refine ⟨_, turns_bundle (hsorted _) fun index => ?_, [], (List.append_nil _).symm⟩
    have hpinned : index ∈ pinnedIndices history ↔ Pinned history index := by
      have hlastIff : index = last ↔ history[index]?.map role = some .user ∧
          ∀ later, index < later → history[later]?.map role ≠ some .user := by
        constructor
        · rintro rfl
          exact ⟨huser, hlater⟩
        · rintro ⟨huser', hlater'⟩
          rcases Nat.lt_trichotomy index last with hlt | heq | hgt
          · exact absurd huser (hlater' last hlt)
          · exact heq
          · exact absurd huser' (hlater index hgt)
      unfold pinnedIndices Pinned
      rw [hlast, head?_map_role]
      split
      next hsystem => simp [hsystem, hlastIff]
      next hsystem => simp [hsystem, hlastIff]
    simp [hpinned]
  | none =>
    have hnone := lastUser_none hlast
    let droppable := (List.range history.length).filter fun index =>
      ¬ (index = 0 ∧ history[0]?.map role = some .system)
    have hturns : Turns history (bundle history droppable) := by
      refine turns_bundle (hsorted _) fun index => ?_
      simp only [droppable, List.mem_filter, List.mem_range, decide_eq_true_eq]
      refine and_congr_right fun _ => not_congr ⟨.inl, fun h => ?_⟩
      exact h.resolve_right fun huser => hnone index huser.1
    refine ⟨_, hturns, ?_⟩
    cases hlength : history.length with
    | zero =>
      have hempty : droppable = [] := by simp [droppable, hlength]
      exact ⟨[], by simp [hempty, turnsOf, droppableGroups, hlength, bundle]⟩
    | succ n =>
      -- The code keeps the tail, and drops whatever else may be dropped.
      have hkept : (List.range (n + 1)).filter (· ∉ pinnedIndices history) =
          (List.range n).filter fun index =>
            ¬ (index = 0 ∧ history[0]?.map role = some .system) := by
        have hpinned : pinnedIndices history =
            (if history[0]?.map role = some .system then [0] else []) ++ [n] := by
          have hne : history.isEmpty = false := by
            cases history with
            | nil => cases hlength
            | cons _ _ => rfl
          unfold pinnedIndices
          rw [hlast, head?_map_role, hlength]
          simp [hne]
        rw [List.range_succ, List.filter_append, hpinned]
        have hlast : [n].filter (· ∉ (if history[0]?.map role = some .system then [0] else [])
            ++ [n]) = [] := by simp
        rw [hlast, List.append_nil]
        refine List.filter_congr fun index hindex => ?_
        have hlt := List.mem_range.mp hindex
        have hne : index ≠ n := by omega
        by_cases hsystem : history[0]?.map role = some .system
        · simp [hsystem, hne]
        · simp [hsystem, hne]
      refine ⟨bundle history ([n].filter fun index =>
        ¬ (index = 0 ∧ history[0]?.map role = some .system)), ?_⟩
      unfold turnsOf droppableGroups
      rw [hlength, hkept, ← bundle_append hnone, ← List.filter_append, ← List.range_succ]
      exact congrArg (fun m => bundle history ((List.range m).filter _)) hlength

/-! ## The marker -/

/-- A content that gained an omission marker, or has one enlarged. -/
inductive MarkerOnly : List ContentBlock → List ContentBlock → Prop
  | gained {blocks : List ContentBlock} {n : Nat} (h : 0 < n) :
      MarkerOnly blocks (omissionMarker n :: blocks)
  | enlarged {before after : List ContentBlock} {count n : Nat} {reason : TruncationReason}
      (h : 0 < n) :
      MarkerOnly (before ++ .omissionMarker count reason :: after)
        (before ++ omissionMarker (count + n) :: after)

/-- The same messages, but for one omission marker gained or enlarged in one of them. -/
def UpToMarker (messages messages' : List M) : Prop :=
  messages' = messages ∨ ∃ before message after blocks,
    messages = before ++ message :: after ∧
      messages' = before ++ withContent message blocks :: after ∧
        MarkerOnly (content message) blocks

theorem mergeMarker_some {dropped : Nat} : ∀ {blocks blocks' : List ContentBlock},
    mergeMarker dropped blocks = some blocks' → ∃ before count reason after,
      blocks = before ++ .omissionMarker count reason :: after ∧
        blocks' = before ++ omissionMarker (count + dropped) :: after
  | [], _, hmerge => by cases hmerge
  | .omissionMarker count reason :: rest, blocks', hmerge =>
    ⟨[], count, reason, rest, rfl, (Option.some.inj hmerge).symm⟩
  | .text text :: rest, blocks', hmerge => by
    obtain ⟨rest', hrest, rfl⟩ := Option.map_eq_some_iff.mp hmerge
    obtain ⟨before, count, reason, after, rfl, rfl⟩ := mergeMarker_some hrest
    exact ⟨.text text :: before, count, reason, after, rfl, rfl⟩
  | .fileRef ref :: rest, blocks', hmerge => by
    obtain ⟨rest', hrest, rfl⟩ := Option.map_eq_some_iff.mp hmerge
    obtain ⟨before, count, reason, after, rfl, rfl⟩ := mergeMarker_some hrest
    exact ⟨.fileRef ref :: before, count, reason, after, rfl, rfl⟩

/-- What a marker does to a content. -/
theorem markerOnly_merge {omitted : Nat} (h : 0 < omitted) (blocks : List ContentBlock) :
    MarkerOnly blocks ((mergeMarker omitted blocks).getD (omissionMarker omitted :: blocks)) := by
  cases hmerge : mergeMarker omitted blocks with
  | none => exact .gained h
  | some blocks' =>
    obtain ⟨before, count, reason, after, rfl, rfl⟩ := mergeMarker_some hmerge
    exact .enlarged h

theorem upToMarker_marked (messages : List M) {omitted : Nat} (h : 0 < omitted) :
    UpToMarker messages (marked messages omitted) := by
  unfold marked
  generalize markerPlace messages = place
  by_cases hplace : place < messages.length
  · have hmarker := markerOnly_merge h (content messages[place])
    refine .inr ⟨messages.take place, messages[place], messages.drop (place + 1), _, ?_, ?_, hmarker⟩
    · rw [List.getElem_cons_drop, List.take_append_drop]
    · exact List.modify_eq_take_cons_drop hplace
  · exact .inl (List.modify_eq_self (Nat.not_lt.mp hplace))

theorem upToMarker_trimmed (history : List M) (dropped : List Nat) :
    UpToMarker (survivors history dropped) (trimmed history dropped) := by
  unfold trimmed
  split
  next hnone =>
    subst hnone
    exact .inl (survivors_nil history).symm
  next hsome =>
    refine upToMarker_marked _ ?_
    have hpos : 0 < dropped.length := List.length_pos_iff.mpr hsome
    omega

/-! ## Cutting documents -/

/-- Cutting documents leaves the total what the messages cost, and the total it was given if it cuts
none. -/
theorem truncateLoop_spec (project : M → ByHash → String) (estimator : String → Int)
    (messages : List M) (budget : Int) (current : List ResolvedAttachment) (exhausted : List Nat)
    (truncated : Nat) (total : Int)
    (htotal : total = price project estimator messages (byHash current)) :
    let r := truncateLoop project estimator messages budget current exhausted truncated total
    r.2.2 = price project estimator messages (byHash r.1) ∧ truncated ≤ r.2.1 ∧
      (r.2.1 = truncated → r.2.2 = total) := by
  obtain ⟨last, hlast, heq, -⟩ := truncateLoop_rule project estimator messages
    (J := fun s : Cut => s.total = price project estimator messages (byHash s.current) ∧
      truncated ≤ s.truncated ∧ (s.truncated = truncated → s.total = total))
    (fun _ _ _ h _ _ => h)
    (fun s index keep h _ _ => by
      have hcounted : (s.cutAt (measured project estimator messages) index keep).truncated =
        s.truncated + 1 := rfl
      exact ⟨rfl, by omega, fun heq => by omega⟩)
    (s := ⟨current, exhausted, truncated, total⟩) ⟨htotal, le_refl _, fun _ => rfl⟩
  dsimp only at heq ⊢
  rw [heq]
  exact hlast

/-! ## Fitting is honest -/

/-- **What a fit promises**, of the history behind its `k` oldest turns. -/
structure Honest (project : M → ByHash → String) (estimator : String → Int) (history : List M)
    (attachments : List ResolvedAttachment) (budget : Int) (groups : List (List Nat)) (k : Nat)
    (result : FitResult M) : Prop where
  /-- The count is what is returned costs. -/
  priced : result.inputTokens =
    price project estimator result.messages (byHash result.attachments)
  fits : result.inputTokens ≤ budget
  /-- The messages are those of the history that are in none of the dropped turns. -/
  kept : UpToMarker (survivors history (groups.take k).flatten) result.messages
  /-- An answer whose question is dropped is dropped. -/
  answered : ∀ index ∈ (groups.take k).flatten, Answered history index →
    index + 1 ∈ (groups.take k).flatten
  /-- No smaller number of turns would have fit, if no document was cut. -/
  least : result.documentsTruncated = 0 → ∀ j < k,
    budget < price project estimator (trimmed history (groups.take j).flatten) (byHash attachments)

theorem Turns.answered {history : List M} {groups : List (List Nat)} (h : Turns history groups)
    (k : Nat) : ∀ index ∈ (groups.take k).flatten, Answered history index →
      index + 1 ∈ (groups.take k).flatten := by
  intro index hindex hanswered
  obtain ⟨group, hgroup, hin⟩ := List.mem_flatten.mp hindex
  have hnext := h.whole group (List.mem_of_mem_take hgroup) index hin hanswered
  exact List.mem_flatten.mpr ⟨group, hgroup, hnext⟩

/-- **Fitting is honest.** Whatever is made of the messages and however they are measured, a fit
returns a history behind some number of its oldest turns, and says what it costs. -/
theorem fit_honest (project : M → ByHash → String) (estimator : String → Int) {history : List M}
    {attachments : List ResolvedAttachment} {budget : Int} {spec : RenderSpec}
    {strategy : FitStrategy} {result : FitResult M}
    (h : fit project estimator history attachments budget spec strategy = .ok result) :
    ∃ groups k, Turns history groups ∧ k ≤ groups.length ∧
      Honest project estimator history attachments budget groups k result := by
  obtain ⟨groups, hturns, more, hgroups⟩ := exists_turns history
  cases strategy with
  | summarize => cases h
  | truncate =>
    obtain ⟨k, hk, hleast, hcases⟩ :=
      fit_cases project estimator history attachments budget spec
    -- Of the turns, the code drops the oldest; those it never drops come last.
    have htake : ∀ j ≤ k, (groups.take j).flatten = oldest history j := by
      intro j hj
      rw [hgroups, List.take_append_of_le_length (hj.trans hk)]
      rfl
    have hlength : k ≤ groups.length := by
      rw [hgroups, List.length_append]
      exact hk.trans (Nat.le_add_right _ _)
    have hkept : UpToMarker (survivors history (groups.take k).flatten)
        (trimmed history (oldest history k)) := by
      rw [htake k (le_refl k)]
      exact upToMarker_trimmed history _
    have hleast' : ∀ j < k, budget < price project estimator
        (trimmed history (groups.take j).flatten) (byHash attachments) := by
      intro j hj
      rw [htake j hj.le]
      exact hleast j hj
    refine ⟨groups, k, hturns, hlength, ?_⟩
    rcases hcases with ⟨hfits, hfit⟩ | ⟨-, -, hfits, hfit⟩ | ⟨-, -, -, exc, hfit⟩
    · obtain rfl := Except.ok.inj (hfit.symm.trans h)
      exact
        { priced := rfl
          fits := hfits
          kept := hkept
          answered := hturns.answered k
          least := fun _ => hleast' }
    · obtain ⟨hprice, -, -⟩ := truncateLoop_spec project estimator
        (trimmed history (oldest history k)) budget attachments [] 0 _ rfl
      obtain rfl := Except.ok.inj (hfit.symm.trans h)
      exact
        { priced := hprice
          fits := hfits
          kept := hkept
          answered := hturns.answered k
          least := fun _ => hleast' }
    · cases hfit.symm.trans h

end

/-- A system message, a question with its answer, and a question. -/
def smallTalk : List CanonicalMessage :=
  [{ role := .system, content := [.text "be brief"], seq := 0 },
    { role := .user, content := [.text "hello"], seq := 1 },
    { role := .assistant, content := [.text "hi"], seq := 2, «meta» := { providerUsed := some "p" } },
    { role := .user, content := [.text "who are you?"], seq := 3 }]

/-- The first question goes with its answer, and the last one tells of both. -/
theorem fit_honest_smallTalk : validate smallTalk = .ok () ∧ ∃ groups k, Turns smallTalk groups ∧
    k ≤ groups.length ∧ Honest (fun _ _ => "") (fun _ => 0) smallTalk [] 12 groups k
      ⟨[{ role := .system, content := [.text "be brief"], seq := 0 },
        { role := .user, content := [omissionMarker 2, .text "who are you?"], seq := 3 }],
        [], 2, 0, 8⟩ := by
  have hfit : fit (fun (_ : CanonicalMessage) _ => "") (fun _ => 0) smallTalk [] 12
      { slot := "s", provider := "p", model := "m", contextWindow := 20, maxOutputTokens := 8
        supportsVision := false, supportsPdf := false } .truncate = .ok
      ⟨[{ role := .system, content := [.text "be brief"], seq := 0 },
        { role := .user, content := [omissionMarker 2, .text "who are you?"], seq := 3 }],
        [], 2, 0, 8⟩ := rfl
  exact ⟨rfl, fit_honest _ _ hfit⟩

end Fitting

end LlmGateway
