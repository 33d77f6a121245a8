import LlmGateway.Api.Moments
import LlmGateway.Effects.Checked

/-!
# What the status page promises

Over the two caches the page tells one story: a candidate that two slots list has one
status in both, which was so when it was read; and a slot is left out only where its
caller could not have used it.
-/

namespace LlmGateway

namespace Models

open Effects Selection

/-! ## The two caches -/

section

variable (cfg : Breaker.Config) (T : Quota.Tracker) (quota : Bool)

/-- What is kept has been answered, and what is kept as a status was so. -/
structure Kept (c : Caches) (ms : List Moment) : Prop where
  resolved : ∀ key resolved, c.resolved key = some resolved → ∃ m ∈ ms, m.resolve key = .ok resolved
  status : ∀ key scope status, c.status (key, scope) = some status →
    ∃ spec : ModelSpec, spec.key = key ∧ Recent cfg T quota ms spec scope status

/-- What is found in a cache behind an entry is the entry or was there. -/
theorem update_cases {κ ν : Type} [DecidableEq κ] {f : κ → Option ν} {k k' : κ} {v v' : ν}
    (h : Function.update f k (some v) k' = some v') : k' = k ∧ v' = v ∨ f k' = some v' := by
  by_cases hkey : k' = k
  · subst hkey
    rw [Function.update_self] at h
    exact .inl ⟨rfl, (Option.some.inj h).symm⟩
  · rw [Function.update_of_ne hkey] at h
    exact .inr h

/-- An entry that is made where there was none replaces nothing. -/
theorem update_keeps {κ ν : Type} [DecidableEq κ] {f : κ → Option ν} {k k' : κ} {v v' : ν}
    (hnone : f k = none) (h : f k' = some v') : Function.update f k (some v) k' = some v' := by
  have hkey : k' ≠ k := by
    rintro rfl
    rw [hnone] at h
    cases h
  rw [Function.update_of_ne hkey, h]

/-- Nothing that is kept is dropped or replaced. -/
structure Grows (c c' : Caches) : Prop where
  resolved : ∀ key resolved, c.resolved key = some resolved → c'.resolved key = some resolved
  status : ∀ key status, c.status key = some status → c'.status key = some status

/-- The status a candidate has on this page. -/
def Written (c : Caches) (key : Pair) (status : CandidateStatus) : Prop :=
  ∃ resolved, c.resolved key = some resolved ∧ c.status (key, resolved.scope) = some status

/-- How the page's state goes on. -/
structure Onward (c : Caches) (ms : List Moment) (c' : Caches) (ms' : List Moment) : Prop where
  kept : Kept cfg T quota c' ms'
  grows : Grows c c'
  seen : ms <+: ms'

end

section

variable {cfg : Breaker.Config} {T : Quota.Tracker} {quota : Bool} {spec : ModelSpec}
  {c c' c'' : Caches} {ms ms' ms'' : List Moment} {key : Pair} {status : CandidateStatus}

theorem Recent.mono {scope : String} (h : Recent cfg T quota ms spec scope status)
    (hms : ms ⊆ ms') : Recent cfg T quota ms' spec scope status := by
  obtain ⟨m, hm, m', hm', htold⟩ := h
  exact ⟨m, hms hm, m', hms hm', htold⟩

theorem Kept.mono (h : Kept cfg T quota c ms) (hms : ms ⊆ ms') : Kept cfg T quota c ms' where
  resolved key resolved hkey := by
    obtain ⟨m, hm, hresolved⟩ := h.resolved key resolved hkey
    exact ⟨m, hms hm, hresolved⟩
  status key scope status hkey := by
    obtain ⟨spec, hspec, hrecent⟩ := h.status key scope status hkey
    exact ⟨spec, hspec, hrecent.mono hms⟩

theorem Kept.empty : Kept cfg T quota {} ms :=
  ⟨fun _ _ (h : none = some _) => (nomatch h), fun _ _ _ (h : none = some _) => (nomatch h)⟩

theorem Grows.trans (h : Grows c c') (h' : Grows c' c'') : Grows c c'' :=
  ⟨fun key _ hkey => h'.resolved key _ (h.resolved key _ hkey),
    fun key _ hkey => h'.status key _ (h.status key _ hkey)⟩

theorem Onward.refl (h : Kept cfg T quota c ms) : Onward cfg T quota c ms c ms :=
  ⟨h, ⟨fun _ _ => id, fun _ _ => id⟩, List.prefix_rfl⟩

theorem Onward.trans (h : Onward cfg T quota c ms c' ms')
    (h' : Onward cfg T quota c' ms' c'' ms'') : Onward cfg T quota c ms c'' ms'' :=
  ⟨h'.kept, h.grows.trans h'.grows, h.seen.trans h'.seen⟩

/-- Answers that change no cache. -/
theorem Onward.ask (h : Kept cfg T quota c ms) (seen : List Moment) :
    Onward cfg T quota c ms c (ms ++ seen) :=
  ⟨h.mono (List.subset_append_left _ _), ⟨fun _ _ => id, fun _ _ => id⟩, List.prefix_append _ _⟩

theorem Written.mono (h : Written c key status) (hgrows : Grows c c') : Written c' key status := by
  obtain ⟨resolved, hresolved, hstatus⟩ := h
  exact ⟨resolved, hgrows.resolved _ _ hresolved, hgrows.status _ _ hstatus⟩

/-- One candidate, one status. -/
theorem Written.unique {status' : CandidateStatus} (h : Written c key status)
    (h' : Written c key status') : status = status' := by
  obtain ⟨resolved, hresolved, hstatus⟩ := h
  obtain ⟨resolved', hresolved', hstatus'⟩ := h'
  cases hresolved.symm.trans hresolved'
  exact Option.some.inj (hstatus.symm.trans hstatus')

/-- A credential that is asked for once is kept as it was answered. -/
theorem wp_resolvedFor (hkept : Kept cfg T quota c ms)
    {Q : Except Exn (ResolvedKey × Caches) → List Moment → Prop}
    (herror : ∀ e ms', Q (.error e) ms')
    (hok : ∀ resolved c' ms', Onward cfg T quota c ms c' ms' →
      c'.resolved spec.key = some resolved → Q (.ok (resolved, c')) ms') :
    wp (world cfg T) (resolvedFor spec c) Q ms := by
  unfold resolvedFor
  split
  · rename_i resolved hresolved
    exact hok _ _ _ (.refl hkept) hresolved
  · rename_i hnone
    rw [wp_bind]
    refine wp_answer (q := .forProvider _ _) (f := id) fun m answer hanswer => ?_
    cases hanswer
    cases hm : m.resolve (spec.provider, spec.model) with
    | error e => exact herror e _
    | ok resolved =>
      have hgrown := hkept.mono (List.subset_append_left ms [m])
      refine hok _ _ _ ⟨⟨fun key r hr => ?_, hgrown.status⟩,
        ⟨fun _ _ => update_keeps hnone, fun _ _ => id⟩, List.prefix_append _ _⟩
        (Function.update_self ..)
      rcases update_cases hr with ⟨rfl, rfl⟩ | hr
      · exact ⟨m, by simp, hm⟩
      · exact hgrown.resolved key r hr

/-- **A candidate is read once**, and what is shown of it was so. -/
theorem wp_statusFor (hkept : Kept cfg T quota c ms)
    {Q : Except Exn (CandidateStatus × Caches) → List Moment → Prop}
    (herror : ∀ e ms', Q (.error e) ms')
    (hok : ∀ status c' ms', Onward cfg T quota c ms c' ms' → Written c' spec.key status →
      Q (.ok (status, c')) ms') :
    wp (world cfg T) (statusFor quota spec c) Q ms := by
  unfold statusFor
  rw [wp_bind]
  refine wp_resolvedFor hkept herror fun resolved c₁ ms₁ hon hresolved => ?_
  dsimp only
  split
  · rename_i status hstatus
    exact hok _ _ _ hon ⟨resolved, hresolved, hstatus⟩
  · rename_i hnone
    rw [wp_bind]
    refine wp_candidateStatus fun seen status hrecent => ?_
    have hkept₁ := hon.kept.mono (List.subset_append_left ms₁ seen)
    refine hok _ _ _ (hon.trans ⟨⟨hkept₁.resolved, fun key scope st hst => ?_⟩,
      ⟨fun _ _ => id, fun _ _ => update_keeps hnone⟩, List.prefix_append _ _⟩)
      ⟨resolved, hresolved, Function.update_self ..⟩
    rcases update_cases hst with ⟨hkey, rfl⟩ | hst
    · cases hkey
      exact ⟨spec, rfl, hrecent⟩
    · exact hkept₁.status key scope st hst

end

/-! ## The page -/

section

variable (cfg : Breaker.Config) (T : Quota.Tracker) (quota : Bool) (registry : ProviderRegistry)

/-- The caller's own key was found for every provider of the candidates. -/
def Reachable (ms : List Moment) (specs : List ModelSpec) : Prop :=
  ∀ spec ∈ specs, ∃ other ∈ specs, other.provider = spec.provider ∧
    ∃ m ∈ ms, ∃ resolved, m.resolve other.key = .ok resolved ∧ resolved.pool = .«private»

/-- Some candidate was not the caller's to pay for. -/
def Unreachable (ms : List Moment) (specs : List ModelSpec) : Prop :=
  ∃ spec ∈ specs, ∃ m ∈ ms, ∃ resolved, m.resolve spec.key = .ok resolved ∧
    resolved.pool ≠ .«private»

/-- The entry of a slot lists its candidates in order, each with the status it has on this
page. -/
def Entry (c : Caches) (slot : String) (specs : List ModelSpec) (e : ModelEntry) : Prop :=
  ∃ ownedBy description statuses, e = entryOf slot ownedBy description statuses ∧
    List.Forall₂ (fun spec status => Written c spec.key status) specs statuses

/-- What becomes of a slot on the page. -/
def Outcome (c : Caches) (ms : List Moment) (slot : String) (outcome : Option ModelEntry) : Prop :=
  ∃ specs, registry.candidates slot = .ok specs ∧
    match outcome with
    | some e => Entry c slot specs e ∧
        (registry.requiresPrivateKey slot = true → Reachable ms specs)
    | none => registry.requiresPrivateKey slot = true ∧ Unreachable ms specs

end

section

variable {cfg : Breaker.Config} {T : Quota.Tracker} {quota : Bool} {registry : ProviderRegistry}
  {description : String → String} {c c' : Caches} {ms ms' : List Moment} {slot : String}

theorem Entry.mono {specs : List ModelSpec} {e : ModelEntry} (h : Entry c slot specs e)
    (hgrows : Grows c c') : Entry c' slot specs e := by
  obtain ⟨ownedBy, text, statuses, he, hall⟩ := h
  exact ⟨ownedBy, text, statuses, he, hall.imp fun _ _ hw => hw.mono hgrows⟩

theorem Outcome.mono {outcome : Option ModelEntry} (h : Outcome registry c ms slot outcome)
    (hgrows : Grows c c') (hms : ms ⊆ ms') : Outcome registry c' ms' slot outcome := by
  obtain ⟨specs, hspecs, h⟩ := h
  refine ⟨specs, hspecs, ?_⟩
  cases outcome with
  | none =>
    obtain ⟨hprivate, spec, hspec, m, hm, hbarred⟩ := h
    exact ⟨hprivate, spec, hspec, m, hms hm, hbarred⟩
  | some e =>
    refine ⟨h.1.mono hgrows, fun hprivate spec hspec => ?_⟩
    obtain ⟨other, hother, hprovider, m, hm, hown⟩ := h.2 hprivate spec hspec
    exact ⟨other, hother, hprovider, m, hms hm, hown⟩

theorem wp_statusesFor {specs : List ModelSpec} (hkept : Kept cfg T quota c ms)
    {Q : Except Exn (List CandidateStatus × Caches) → List Moment → Prop}
    (herror : ∀ e ms', Q (.error e) ms')
    (hok : ∀ statuses c' ms', Onward cfg T quota c ms c' ms' →
      List.Forall₂ (fun spec status => Written c' spec.key status) specs statuses →
      Q (.ok (statuses, c')) ms') :
    wp (world cfg T) (statusesFor quota specs c) Q ms := by
  induction specs generalizing c ms Q with
  | nil => exact hok _ _ _ (.refl hkept) .nil
  | cons spec specs ih =>
    unfold statusesFor
    rw [wp_bind]
    refine wp_statusFor hkept herror fun status c₁ ms₁ hon hwritten => ?_
    dsimp only
    rw [wp_bind]
    refine ih hon.kept herror fun statuses c₂ ms₂ hon' hall => ?_
    exact hok _ _ _ (hon.trans hon') (.cons (hwritten.mono hon'.grows) hall)

/-- The gate of a private slot: what it has `seen` is the caller's own, and it stops at the first
candidate that is not. -/
theorem wp_resolvesPrivate {all specs : List ModelSpec} {seen : List String}
    (hsub : specs ⊆ all)
    (hseen : ∀ provider ∈ seen, ∃ other ∈ all, other.provider = provider ∧
      ∃ m ∈ ms, ∃ resolved, m.resolve other.key = .ok resolved ∧ resolved.pool = .«private»)
    {Q : Except Exn Bool → List Moment → Prop} (herror : ∀ e ms', Q (.error e) ms')
    (hyes : ∀ more, (∀ spec ∈ specs, ∃ other ∈ all, other.provider = spec.provider ∧
      ∃ m ∈ ms ++ more, ∃ resolved, m.resolve other.key = .ok resolved ∧
        resolved.pool = .«private») → Q (.ok true) (ms ++ more))
    (hno : ∀ more, Unreachable (ms ++ more) all → Q (.ok false) (ms ++ more)) :
    wp (world cfg T) (resolvesPrivate seen specs) Q ms := by
  induction specs generalizing seen ms Q with
  | nil =>
    have := hyes [] (fun _ h => nomatch h)
    rwa [List.append_nil] at this
  | cons spec specs ih =>
    have hspec : spec ∈ all := hsub List.mem_cons_self
    have hrest : specs ⊆ all := fun _ h => hsub (List.mem_cons_of_mem _ h)
    unfold resolvesPrivate
    split
    · rename_i hmem
      refine ih hrest hseen herror (fun more h => hyes more fun other hother => ?_) hno
      rcases List.mem_cons.mp hother with rfl | hother
      · obtain ⟨other', ho, hp, m, hm, hown⟩ := hseen _ hmem
        exact ⟨other', ho, hp, m, List.mem_append_left _ hm, hown⟩
      · exact h other hother
    · rw [wp_bind]
      refine wp_answer (q := .forProvider _ _) (f := id) fun m answer hanswer => ?_
      cases hanswer
      cases hm : m.resolve (spec.provider, spec.model) with
      | error e => exact herror e _
      | ok resolved =>
        dsimp only [id]
        split
        · rename_i hshared
          exact hno [m] ⟨spec, hspec, m, by simp, resolved, hm, hshared⟩
        · rename_i hprivate
          rw [not_not] at hprivate
          refine ih hrest (fun provider hprovider => ?_) herror (fun more h => ?_)
            fun more h => ?_
          · rcases List.mem_cons.mp hprovider with rfl | hprovider
            · exact ⟨spec, hspec, rfl, m, by simp, resolved, hm, hprivate⟩
            · obtain ⟨other, ho, hp, m', hm', hown⟩ := hseen provider hprovider
              exact ⟨other, ho, hp, m', List.mem_append_left _ hm', hown⟩
          · rw [List.append_assoc] at h ⊢
            refine hyes _ fun other hother => ?_
            rcases List.mem_cons.mp hother with rfl | hother
            · exact ⟨other, hspec, rfl, m, by simp, resolved, hm, hprivate⟩
            · exact h other hother
          · rw [List.append_assoc] at h ⊢
            exact hno _ h

theorem wp_listEntry {specs : List ModelSpec} (hkept : Kept cfg T quota c ms)
    {Q : Except Exn (Option ModelEntry × Caches) → List Moment → Prop}
    (herror : ∀ e ms', Q (.error e) ms')
    (hok : ∀ e c' ms', Onward cfg T quota c ms c' ms' → Entry c' slot specs e →
      Q (.ok (some e, c')) ms') :
    wp (world cfg T) (listEntry quota description slot specs c) Q ms := by
  unfold listEntry
  rw [wp_bind]
  refine wp_statusesFor hkept herror fun statuses c' ms' hon hall => ?_
  cases specs with
  | nil => exact herror _ _
  | cons primary rest => exact hok _ _ _ hon ⟨_, _, _, rfl, hall⟩

theorem wp_slotEntry (hkept : Kept cfg T quota c ms)
    {Q : Except Exn (Option ModelEntry × Caches) → List Moment → Prop}
    (herror : ∀ e ms', Q (.error e) ms')
    (hok : ∀ outcome c' ms', Onward cfg T quota c ms c' ms' →
      Outcome registry c' ms' slot outcome → Q (.ok (outcome, c')) ms') :
    wp (world cfg T) (slotEntry registry quota description slot c) Q ms := by
  unfold slotEntry lookup
  rw [wp_bind, wp_ofExcept]
  cases hspecs : registry.candidates slot with
  | error e => exact herror _ _
  | ok specs =>
    simp only [Except.mapError]
    split
    · rename_i hprivate
      rw [wp_bind]
      refine wp_resolvesPrivate (fun _ => id) (fun _ h => absurd h List.not_mem_nil) herror
        (fun more hown => ?_) fun more hbarred => ?_
      · have hasked := Onward.ask hkept more
        refine wp_listEntry hasked.kept herror fun e c' ms' hon hentry => ?_
        refine hok _ _ _ (hasked.trans hon) ⟨specs, hspecs, hentry, fun _ spec hspec => ?_⟩
        obtain ⟨other, ho, hp, m, hm, hpays⟩ := hown spec hspec
        exact ⟨other, ho, hp, m, hon.seen.subset hm, hpays⟩
      · exact hok _ _ _ (.ask hkept more) ⟨specs, hspecs, hprivate, hbarred⟩
    · rename_i hpublic
      refine wp_listEntry hkept herror fun e c' ms' hon hentry => ?_
      exact hok _ _ _ hon ⟨specs, hspecs, hentry, fun hprivate => absurd hprivate hpublic⟩

theorem wp_slotEntries {slots : List String} (hkept : Kept cfg T quota c ms)
    {Q : Except Exn (List ModelEntry) → List Moment → Prop} (herror : ∀ e ms', Q (.error e) ms')
    (hok : ∀ outcomes c' ms', Onward cfg T quota c ms c' ms' →
      List.Forall₂ (Outcome registry c' ms') slots outcomes →
      Q (.ok (outcomes.flatMap Option.toList)) ms') :
    wp (world cfg T) (slotEntries registry quota description slots c) Q ms := by
  induction slots generalizing c ms Q with
  | nil => exact hok [] _ _ (.refl hkept) .nil
  | cons slot slots ih =>
    unfold slotEntries
    rw [wp_bind]
    refine wp_slotEntry hkept herror fun outcome c₁ ms₁ hon houtcome => ?_
    dsimp only
    rw [wp_bind]
    refine ih hon.kept herror fun outcomes c₂ ms₂ hon' hall => ?_
    exact hok (outcome :: outcomes) _ _ (hon.trans hon')
      (.cons (houtcome.mono hon'.grows hon'.seen.subset) hall)

/-- The whole page, over what it has kept. -/
structure Page (cfg : Breaker.Config) (T : Quota.Tracker) (quota : Bool)
    (registry : ProviderRegistry) (ms : List Moment) (page : List ModelEntry) (c : Caches)
    (head : ModelEntry) (outcomes : List (Option ModelEntry)) : Prop where
  kept : Kept cfg T quota c ms
  auto : ∃ chain, candidates registry Selection.auto none (none : Option (LatencySnapshot ℚ)) =
    .ok chain ∧ Entry c Selection.auto chain head
  slots : List.Forall₂ (Outcome registry c ms) registry.slots outcomes
  page : page = head :: outcomes.flatMap Option.toList

theorem listModels_page {tr : List (Event iface)} {page : List ModelEntry}
    (haccepts : (world cfg T).Accepts [] tr ms)
    (hruns : (listModels registry quota description).Runs tr (.ok page)) :
    ∃ c head outcomes, Page cfg T quota registry ms page c head outcomes := by
  have hwp : wp (world cfg T) (listModels registry quota description)
      (fun r ms => ∀ page, r = .ok page →
        ∃ c head outcomes, Page cfg T quota registry ms page c head outcomes) [] := by
    unfold listModels lookup
    rw [wp_bind, wp_ofExcept]
    cases hchain : candidates registry Selection.auto none (none : Option (LatencySnapshot ℚ)) with
    | error e => exact fun _ h => nomatch h
    | ok chain =>
      simp only [Except.mapError]
      rw [wp_bind]
      refine wp_statusesFor .empty (fun _ _ _ h => nomatch h) fun statuses c₁ ms₁ hon hall => ?_
      dsimp only
      rw [wp_bind]
      refine wp_slotEntries hon.kept (fun _ _ _ h => nomatch h)
        fun outcomes c₂ ms₂ hon' hslots => ?_
      rintro page ⟨⟩
      exact ⟨c₂, _, outcomes, hon'.kept,
        ⟨chain, hchain, _, _, _, rfl, hall.imp fun _ _ hw => hw.mono hon'.grows⟩, hslots, rfl⟩
  exact wp_sound _ hwp hruns haccepts page rfl

end

/-! ## A page -/

section

/-- One model under a slot's name. -/
def specOf (slot provider model : String) : ModelSpec :=
  { slot, provider, model, contextWindow := 8192 }

/-- Two slots of the shared pool, and one that needs a key of the caller's own. -/
def threeSlots : ProviderRegistry where
  specs := [
    ("general", [specOf "general" "gemini" "flash"]),
    ("fast", [specOf "fast" "groq" "small"]),
    ("own", [specOf "own" "openai" "large"])]
  internalSlots := []
  privateKeyOnlySlots := ["own"]
  specs_nodup := by decide

/-- One request a day, of every model. -/
def oncePerDay : Quota.Tracker where
  limits _ _ := some
    { limit := fun w => if w = .rpd then some 1 else none
      reset := fun _ => some .rollingDaily
      reset_declared := fun _ _ => rfl }
  effectiveLimit _ limit := limit
  perceptionLimit _ _ limit := limit
  pacific := Quota.utc

/-- One model has had its request, and every breaker is closed. -/
def midday : Moment where
  up := true
  now := 0
  breakers _ := {}
  db := { counters := fun key =>
    if key = Quota.quotaKey "system" "gemini" "flash" .rpd then some { value := 1 } else none }
  resolve pair := .ok { provider := pair.1, key := "sk", pool := .shared, scope := "system" }

/-- What the page is answered at midday. -/
def answer : (q : Ask) → Ans q
  | .forProvider provider model => midday.resolve (provider, model)
  | .peek provider model => { allowed := true, provider, model, state := .closed }
  | .remaining spec scope =>
    Metrics.remaining oncePerDay spec midday.now (midday.stored spec scope)
  | .now => midday.now

/-- The page of that midday. -/
def middayPage : List (Event iface) × Except Exn (List ModelEntry) :=
  (listModels threeSlots true id).play (fun ms q => (answer q, ms ++ [midday])) []

theorem answer_answers (q : Ask) : Answers Breaker.defaults oncePerDay midday q (answer q) := by
  cases q with
  | forProvider provider model => rfl
  | remaining spec scope => rfl
  | now => rfl
  | peek provider model =>
    exact ⟨{}, [⟨.hgetall, .ok {}⟩], .ask _ (.ret _),
      .cons ⟨rfl, 0, le_refl _, rfl⟩ (.nil _)⟩

theorem middayPage_accepts : ∃ ms, (world Breaker.defaults oncePerDay).Accepts [] middayPage.1 ms :=
  ⟨_, accepts_play (fun _ q => ⟨midday, rfl, answer_answers q⟩) _ _⟩

theorem middayPage_page : ∃ page, middayPage.2 = .ok page ∧
    page.map (fun e => (e.id, e.status)) =
      [("auto", .available), ("general", .rateLimited), ("fast", .available)] := by
  have heval : middayPage.2.map (fun page => page.map fun e => (e.id, e.status)) =
      .ok [("auto", .available), ("general", .rateLimited), ("fast", .available)] := by decide
  cases hpage : middayPage.2 with
  | error e => rw [hpage] at heval; cases heval
  | ok page =>
    rw [hpage] at heval
    exact ⟨page, rfl, Except.ok.inj heval⟩

end

/-! ## What it lists -/

section

variable {cfg : Breaker.Config} {T : Quota.Tracker} {quota : Bool} {registry : ProviderRegistry}
  {description : String → String} {c : Caches} {ms : List Moment} {tr : List (Event iface)}
  {page : List ModelEntry}

theorem summarize_rank {statuses : List CandidateStatus} :
    (∀ status ∈ statuses, statusRank (summarize statuses).1 ≤ statusRank status.status) ∧
      (statuses ≠ [] → ∃ status ∈ statuses, status.status = (summarize statuses).1) := by
  unfold summarize
  cases hbest : (statuses.map (·.status)).argmin statusRank with
  | none =>
    rw [List.argmin_eq_none, List.map_eq_nil_iff] at hbest
    subst hbest
    exact ⟨fun _ h => absurd h List.not_mem_nil, fun hne => absurd rfl hne⟩
  | some best =>
    have hmem := List.argmin_mem hbest
    have hle : ∀ status ∈ statuses, statusRank best ≤ statusRank status.status :=
      fun status hstatus => List.le_of_mem_argmin (List.mem_map_of_mem hstatus) hbest
    cases best with
    | _ => exact ⟨hle, fun _ => List.mem_map.mp hmem⟩

/-- **What an entry says of its candidates**: of each, a status it had while the page was built,
under the scope the caller's credentials gave it; and of the slot, the best of these. -/
def Says (cfg : Breaker.Config) (T : Quota.Tracker) (quota : Bool) (ms : List Moment)
    (specs : List ModelSpec) (e : ModelEntry) : Prop :=
  List.Forall₂ (fun (spec : ModelSpec) status => ∃ read : ModelSpec, read.key = spec.key ∧
      ∃ resolved, (∃ m ∈ ms, m.resolve spec.key = .ok resolved) ∧
        Recent cfg T quota ms read resolved.scope status) specs e.candidates ∧
    (∀ status ∈ e.candidates, statusRank e.status ≤ statusRank status.status) ∧
    (e.candidates ≠ [] → ∃ status ∈ e.candidates, status.status = e.status)

theorem Entry.says {specs : List ModelSpec} {slot : String} {e : ModelEntry}
    (h : Entry c slot specs e) (hkept : Kept cfg T quota c ms) :
    e.id = slot ∧ Says cfg T quota ms specs e := by
  obtain ⟨ownedBy, text, statuses, rfl, hall⟩ := h
  refine ⟨rfl, hall.imp fun spec status hwritten => ?_, summarize_rank⟩
  obtain ⟨resolved, hresolved, hstatus⟩ := hwritten
  obtain ⟨read, hread, hrecent⟩ := hkept.status _ _ _ hstatus
  exact ⟨read, hread, resolved, hkept.resolved _ _ hresolved, hrecent⟩

theorem Entry.written {specs : List ModelSpec} {slot : String} {e : ModelEntry}
    (h : Entry c slot specs e) {status : CandidateStatus} (hstatus : status ∈ e.candidates) :
    ∃ spec ∈ specs, Written c spec.key status := by
  obtain ⟨ownedBy, text, statuses, rfl, hall⟩ := h
  exact exists_of_forall₂ hall hstatus

/-- Every entry is that of `auto` or of a slot. -/
theorem Page.entry {head : ModelEntry} {outcomes : List (Option ModelEntry)}
    (h : Page cfg T quota registry ms page c head outcomes) {e : ModelEntry} (he : e ∈ page) :
    ∃ slot specs, (slot = Selection.auto ∧
        candidates registry Selection.auto none (none : Option (LatencySnapshot ℚ)) = .ok specs ∨
      slot ∈ registry.slots ∧ registry.candidates slot = .ok specs) ∧ Entry c slot specs e := by
  rw [h.page] at he
  rcases List.mem_cons.mp he with rfl | he
  · obtain ⟨chain, hchain, hentry⟩ := h.auto
    exact ⟨_, chain, .inl ⟨rfl, hchain⟩, hentry⟩
  · obtain ⟨outcome, houtcome, he⟩ := List.mem_flatMap.mp he
    obtain ⟨slot, hslot, specs, hspecs, hlisted⟩ := exists_of_forall₂ h.slots houtcome
    rw [Option.mem_toList] at he
    cases he
    exact ⟨slot, specs, .inr ⟨hslot, hspecs⟩, hlisted.1⟩

/-- Which slots are left out. -/
theorem ids_of_outcomes {slots : List String} {outcomes : List (Option ModelEntry)}
    (hslots : slots.Nodup) (h : List.Forall₂ (Outcome registry c ms) slots outcomes) :
    ((outcomes.flatMap Option.toList).map (·.id)).Sublist slots ∧
      ∀ slot ∈ slots, ∃ specs, registry.candidates slot = .ok specs ∧
        (slot ∈ (outcomes.flatMap Option.toList).map (·.id) ∧
            (registry.requiresPrivateKey slot = true → Reachable ms specs) ∨
          slot ∉ (outcomes.flatMap Option.toList).map (·.id) ∧
            registry.requiresPrivateKey slot = true ∧ Unreachable ms specs) := by
  induction h with
  | nil => exact ⟨List.Sublist.refl _, fun _ h => absurd h List.not_mem_nil⟩
  | @cons slot outcome slots outcomes houtcome _ ih =>
    obtain ⟨hnew, hnodup⟩ := List.nodup_cons.mp hslots
    obtain ⟨hsub, hall⟩ := ih hnodup
    obtain ⟨specs, hspecs, hlisted⟩ := houtcome
    cases outcome with
    | none =>
      refine ⟨hsub.cons _, fun other hother => ?_⟩
      rcases List.mem_cons.mp hother with rfl | hother
      · exact ⟨specs, hspecs, .inr ⟨fun hmem => hnew (hsub.subset hmem), hlisted⟩⟩
      · exact hall other hother
    | some e =>
      obtain ⟨⟨ownedBy, text, statuses, rfl, -⟩, hreach⟩ := hlisted
      refine ⟨hsub.cons_cons _, fun other hother => ?_⟩
      rcases List.mem_cons.mp hother with rfl | hrest
      · exact ⟨specs, hspecs, .inl ⟨List.mem_cons_self, hreach⟩⟩
      · obtain ⟨specs', hspecs', hcase⟩ := hall other hrest
        have hne : other ≠ slot := by
          rintro rfl
          exact hnew hrest
        refine ⟨specs', hspecs', hcase.imp (fun h => ⟨List.mem_cons_of_mem _ h.1, h.2⟩)
          fun h => ⟨fun hmem => ?_, h.2⟩⟩
        rcases List.mem_cons.mp hmem with heq | hmem
        · exact hne heq
        · exact h.1 hmem

/-- **One page, one story.** The page begins with `auto` and then lists slots in the table's order;
it leaves out a slot only where that needs a key of the caller's own and some candidate was the
shared pool's to pay for, and lists such a slot only where every provider had such a key. And
however many slots list a candidate, and whatever changes while the page is built, it shows one
status of it. -/
theorem listed_once (cfg : Breaker.Config) (T : Quota.Tracker) (quota : Bool)
    (registry : ProviderRegistry) (description : String → String) {ms : List Moment}
    {tr : List (Event iface)} {page : List ModelEntry}
    (haccepts : (world cfg T).Accepts [] tr ms)
    (hruns : (listModels registry quota description).Runs tr (.ok page)) :
    (∃ ids : List String, page.map (·.id) = Selection.auto :: ids ∧ ids.Sublist registry.slots ∧
      ∀ slot ∈ registry.slots, ∃ specs, registry.candidates slot = .ok specs ∧
        (slot ∈ ids ∧ (registry.requiresPrivateKey slot = true → Reachable ms specs) ∨
          slot ∉ ids ∧ registry.requiresPrivateKey slot = true ∧ Unreachable ms specs)) ∧
      ∀ e ∈ page, ∀ e' ∈ page, ∀ status ∈ e.candidates, ∀ status' ∈ e'.candidates,
        status.key = status'.key → status = status' := by
  obtain ⟨c, head, outcomes, hpage⟩ := listModels_page haccepts hruns
  constructor
  · have hnodup : registry.slots.Nodup := registry.specs_nodup.filter _
    obtain ⟨hsub, hall⟩ := ids_of_outcomes hnodup hpage.slots
    obtain ⟨chain, -, ownedBy, text, statuses, hhead, -⟩ := hpage.auto
    refine ⟨_, ?_, hsub, hall⟩
    rw [hpage.page, List.map_cons, hhead]
    rfl
  · -- A status is written under the pair it shows.
    have hkey : ∀ e ∈ page, ∀ status ∈ e.candidates, Written c status.key status := by
      intro e he status hstatus
      obtain ⟨slot, specs, -, hentry⟩ := hpage.entry he
      obtain ⟨spec, -, hwritten⟩ := hentry.written hstatus
      obtain ⟨resolved, -, hkept⟩ := id hwritten
      obtain ⟨read, hread, m, -, m', -, htold, -⟩ := hpage.kept.status _ _ _ hkept
      rwa [htold, hread]
    intro e he e' he' status hstatus status' hstatus' heq
    have hwritten := hkey e' he' status' hstatus'
    rw [← heq] at hwritten
    exact (hkey e he status hstatus).unique hwritten

/-- The slot that needs a key of the caller's own is left out. -/
theorem listed_once_midday : ∃ (ms : List Moment) (page : List ModelEntry),
    page.map (·.id) = ["auto", "general", "fast"] ∧
    ((∃ ids : List String, page.map (·.id) = Selection.auto :: ids ∧
      ids.Sublist threeSlots.slots ∧
      ∀ slot ∈ threeSlots.slots, ∃ specs, threeSlots.candidates slot = .ok specs ∧
        (slot ∈ ids ∧ (threeSlots.requiresPrivateKey slot = true → Reachable ms specs) ∨
          slot ∉ ids ∧ threeSlots.requiresPrivateKey slot = true ∧ Unreachable ms specs)) ∧
      ∀ e ∈ page, ∀ e' ∈ page, ∀ status ∈ e.candidates, ∀ status' ∈ e'.candidates,
        status.key = status'.key → status = status') := by
  obtain ⟨ms, haccepts⟩ := middayPage_accepts
  obtain ⟨page, hpage, hids⟩ := middayPage_page
  refine ⟨ms, page, ?_, listed_once _ _ _ _ id haccepts (hpage ▸ Prog.play_runs _ _ _)⟩
  have := congrArg (List.map Prod.fst) hids
  rwa [List.map_map] at this

end

end Models

end LlmGateway
