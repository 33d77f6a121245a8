import LlmGateway.Quota.Refund

/-!
# A reservation is settled once

Calls and settlements in any order, with keys that expire anywhere between them.
A reservation is what the hash under its key holds, from the call that writes it
to the settlement that deletes it; a retry of the request adds to it.
-/

namespace LlmGateway

namespace Quota

open Tracker

/-! ## The scripts of a run -/

/-- A call, with what settles it: no key and no window is taken twice, and tokens are
counted in the windows declared to count them. -/
structure Booking (T : Tracker) where
  grants : List WindowGrant
  scope : String
  provider : String
  model : String
  estimatedTokens : ℤ
  requestId : String
  keys : (grants.map (·.key)).Nodup
  windows : (grants.map (·.window)).Nodup
  tokens : ∀ g ∈ grants, g.costIsTokens = true ↔
    ∃ s ∈ T.declared provider model, s.window = g.window ∧ s.costIsTokens = true

section

variable {T : Tracker}

namespace Booking

/-- Its receipt. -/
def receipt (b : Booking T) : Reservation :=
  Tracker.receipt b.grants b.scope b.provider b.model b.estimatedTokens b.requestId

/-- The key of its hash. -/
def key (b : Booking T) : String := reservationKey b.receipt

/-- The call itself. -/
def call (b : Booking T) (db : Db) (now : Seconds) : Except String (QuotaDecision × Db) :=
  T.reserveWindows db now b.grants b.scope b.provider b.model b.estimatedTokens b.requestId

end Booking

/-- Keys go, and time goes by. -/
def Db.lapse (db : Db) (clock : Seconds) (counters hashes : String → Bool) : Db where
  clock
  counters k := if counters k then none else db.counters k
  held k := if hashes k then none else db.held k

/-- What runs next: one of the scripts, or the expiry of any keys. -/
inductive Script (T : Tracker) where
  | reserve (now : Seconds) (b : Booking T)
  | commit (now : Seconds) (b : Booking T) (tokensIn tokensOut : ℤ)
  | release (b : Booking T)
  | lapse (clock : Seconds) (counters hashes : String → Bool)

/-- The database after it. -/
def Db.after (db : Db) : Script T → Db
  | .reserve now b =>
    match b.call db now with
    | .ok (_, db') => db'
    | .error _ => db
  | .commit now b tokensIn tokensOut => T.commit db now b.receipt tokensIn tokensOut
  | .release b => Tracker.release db b.receipt
  | .lapse clock counters hashes => db.lapse clock counters hashes

/-- And after a run. -/
def Db.afterAll (db : Db) (scripts : List (Script T)) : Db := scripts.foldl Db.after db

namespace Script

/-- The key of the reservation a script settles; a call without windows left nothing to
settle, and none is run for it. -/
def settles : Script T → Option String
  | .commit _ b _ _ | .release b => if b.grants = [] then none else some b.key
  | .reserve _ _ | .lapse _ _ _ => none

/-- A reservation is taken under a key. -/
def Takes (db : Db) (key : String) : Script T → Prop
  | .reserve now b => b.key = key ∧ b.grants ≠ [] ∧
      ∃ decision db', b.call db now = .ok (decision, db') ∧ decision.reservation ≠ none
  | .commit _ _ _ _ | .release _ | .lapse _ _ _ => False

/-- None is, all through a run. -/
def Untaken (db : Db) (key : String) : List (Script T) → Prop
  | [] => True
  | s :: scripts => ¬ s.Takes db key ∧ Untaken (db.after s) key scripts

end Script

/-! ## What is claimed of a database -/

/-- What a commit does to the counters of its call, from the amounts of its hash. -/
structure Corrects (b : Booking T) (amounts : QuotaWindow → ℤ) (actual : ℤ)
    (before after : Db) : Prop where
  /-- A token counter that is there. -/
  tokens : ∀ g ∈ b.grants, g.costIsTokens = true → ∀ c, before.counters g.key = some c →
    ∃ c', after.counters g.key = some c' ∧ c'.value = max 0 (c.value - amounts g.window + actual)
  requests : ∀ g ∈ b.grants, g.costIsTokens = false →
    after.counters g.key = before.counters g.key
  /-- The counters of the other calls. -/
  others : ∀ k, k ∉ b.grants.map (·.key) → after.counters k = before.counters k

/-- Settlements are right wherever the database is met. -/
structure Orderly (T : Tracker) (db : Db) : Prop where
  nonneg : ∀ k c, db.counters k = some c → 0 ≤ c.value
  corrects : ∀ now (b : Booking T) tokensIn tokensOut h, db.held b.key = some h →
    Corrects b h.amounts (tokensIn + tokensOut) db (db.after (.commit now b tokensIn tokensOut))
  /-- Until its key is taken again, a reservation once settled stays settled. -/
  once : ∀ (key : String) (first second : Script T) (between : List (Script T)),
    first.settles = some key → second.settles = some key →
    Script.Untaken (db.after first) key between →
      ((db.after first).afterAll between).after second = (db.after first).afterAll between

/-! ## The calls of the two lanes -/

section

variable {lane : Lane} {spec : ModelSpec} {scope : String}

/-- Their grants count tokens where the declared windows do. -/
theorem tokens_grants {g : WindowGrant} (hg : g ∈ T.grants lane spec scope) :
    g.costIsTokens = true ↔
      ∃ s ∈ T.declared spec.provider spec.model, s.window = g.window ∧ s.costIsTokens = true := by
  rcases grant_cases hg with ⟨s, hs, hwindow, htokens, -⟩ | ⟨userId, cap, hcap⟩
  · constructor
    · intro h
      exact ⟨s, hs, hwindow.symm, htokens.symm.trans h⟩
    · rintro ⟨s', hs', hwindow', htokens'⟩
      rw [costIsTokens_of_declared hs', hwindow', hwindow] at htokens'
      rw [htokens, costIsTokens_of_declared hs, htokens']
  · rw [Router.sharedPoolGrants, List.mem_singleton] at hcap
    rw [hcap]
    refine iff_of_false Bool.false_ne_true ?_
    rintro ⟨s, hs, hwindow, htokens⟩
    rw [costIsTokens_of_declared hs, hwindow] at htokens
    cases htokens

/-- A call of either lane, where it takes no key and no window twice. -/
def Booking.ofLane (T : Tracker) (lane : Lane) (spec : ModelSpec) (scope : String)
    (estimatedTokens : ℤ) (requestId : String)
    (hkeys : ((T.grants lane spec scope).map (·.key)).Nodup)
    (hsingle : ¬ Doubled T lane spec) : Booking T where
  grants := T.grants lane spec scope
  scope
  provider := spec.provider
  model := spec.model
  estimatedTokens
  requestId
  keys := hkeys
  windows := windows_nodup_iff.mpr hsingle
  tokens _ hg := tokens_grants hg

theorem filter_eq_ite {α : Type} (p : α → Bool) (o : Option α) :
    o.filter p = if o.any (fun a => !p a) then none else o := by
  cases o with
  | none => rfl
  | some a => cases hp : p a <;> simp [Option.filter, hp]

/-- Time that goes by is such an expiry. -/
theorem Db.waitUntil_eq_lapse (db : Db) (t : Seconds) :
    db.waitUntil t = db.lapse (max db.clock t)
      (fun k => (db.counters k).any fun c => !alive c.deadline (max db.clock t))
      (fun k => (db.held k).any fun h => !alive h.deadline (max db.clock t)) := by
  unfold Db.waitUntil Db.lapse
  congr 1
  · funext k
    exact filter_eq_ite _ _
  · funext k
    exact filter_eq_ite _ _

end

variable {db : Db}

/-- What a call can do: nothing, or take a reservation and charge its grants. -/
theorem after_reserve (db : Db) (now : Seconds) (b : Booking T) :
    db.after (.reserve now b) = db ∨
      (∃ decision, b.call db now = .ok (decision, db.after (.reserve now b)) ∧
        decision.reservation ≠ none) ∧
      0 ≤ b.estimatedTokens ∧ Charged T db now b.grants b.key b.estimatedTokens b.requestId
        (db.after (.reserve now b)) := by
  cases hcall : b.call db now with
  | error e => exact .inl (by rw [Db.after, hcall])
  | ok result =>
    obtain ⟨decision, db'⟩ := result
    have hafter : db.after (.reserve now b) = db' := by rw [Db.after, hcall]
    rw [hafter]
    rcases reserve_cases hcall with ⟨-, hsame⟩ | ⟨hreservation, htokens, hcharged⟩
    · exact .inl hsame
    · exact .inr ⟨⟨decision, rfl, by rw [hreservation]; exact Option.some_ne_none _⟩, htokens,
        hcharged⟩

/-! ## No counter is negative -/

/-- A script that runs where no counter is negative leaves none so. -/
theorem nonneg_after (hnonneg : ∀ k, 0 ≤ used (db.counters k)) (s : Script T) (k : String) :
    0 ≤ used ((db.after s).counters k) := by
  cases s with
  | reserve now b =>
    rcases after_reserve db now b with hsame | ⟨-, htokens, hcharged⟩
    · rw [hsame]
      exact hnonneg k
    · exact hcharged.kept (P := fun slot => 0 ≤ used slot)
        (fun slot g _ _ => used_spent (cost_nonneg htokens g)) (hnonneg k)
  | commit now b tokensIn tokensOut =>
    exact commit_kept (P := fun slot => 0 ≤ used slot) (fun _ _ _ _ _ => used_corrected) (hnonneg k)
  | release b =>
    exact release_kept (P := fun slot => 0 ≤ used slot) (fun _ _ => used_returned) (hnonneg k)
  | lapse clock counters hashes =>
    change 0 ≤ used (if counters k then none else db.counters k)
    split
    · exact le_refl 0
    · exact hnonneg k

theorem nonneg_afterAll (hnonneg : ∀ k, 0 ≤ used (db.counters k)) (scripts : List (Script T))
    (k : String) : 0 ≤ used ((db.afterAll scripts).counters k) := by
  induction scripts generalizing db with
  | nil => exact hnonneg k
  | cons s scripts ih => exact ih fun k => nonneg_after hnonneg s k

/-! ## A commit corrects the token counters -/

/-- A counter that is there, corrected. -/
theorem corrected_some {clock : Seconds} {reserved : ℤ} {x : Counter} (hx : 0 ≤ x.value)
    (c : Correction) : ∃ y, corrected clock reserved (some x) c = some y ∧
      y.value = max 0 (x.value - reserved + c.actual) := by
  have hused : used (some x) = x.value := rfl
  unfold corrected
  dsimp only
  split_ifs with hup hdown
  · exact ⟨_, rfl, by dsimp only; omega⟩
  · exact ⟨_, rfl, by dsimp only; omega⟩
  · exact ⟨_, rfl, by dsimp only; omega⟩
  · exact ⟨_, rfl, by omega⟩

namespace Booking

variable (b : Booking T) {now : Seconds} {tokensIn tokensOut : ℤ}

/-- Each key is one grant's. -/
theorem eq_of_key {g g' : WindowGrant} (hg : g ∈ b.grants) (hg' : g' ∈ b.grants)
    (hkey : g'.key = g.key) : g' = g := by
  have hmem : g' ∈ b.grants.filter (·.key = g.key) :=
    List.mem_filter.mpr ⟨hg', by simpa using hkey⟩
  rw [filter_key b.keys hg] at hmem
  exact List.mem_singleton.mp hmem

/-- A token grant is the only one at its counter. -/
theorem plain {g : WindowGrant} (hg : g ∈ b.grants) (htokens : g.costIsTokens = true) :
    T.Plain b.provider b.model g.window g.key b.grants where
  window g' hg' hkey := by rw [b.eq_of_key hg hg' hkey]
  tokens g' hg' hkey := by rw [b.eq_of_key hg hg' hkey, htokens]
  declared _ _ _ := (b.tokens g hg).mp htokens
  once := List.nodup_iff_count_le_one.mp b.windows g.window

/-- A correction is that of a token grant. -/
theorem grant_of_correction {actual : ℤ} {c : Correction}
    (hc : c ∈ T.corrections now b.receipt actual) :
    ∃ g ∈ b.grants, g.costIsTokens = true ∧ c.key = g.key := by
  obtain ⟨s, hs, rfl⟩ := List.mem_map.mp hc
  obtain ⟨hdeclared, hs⟩ := List.mem_filter.mp hs
  obtain ⟨htokens, hwindow⟩ := of_decide_eq_true hs
  obtain ⟨g, hg, hgs⟩ := List.mem_map.mp hwindow
  refine ⟨g, hg, (b.tokens g hg).mpr ⟨s, hdeclared, hgs.symm, htokens⟩, ?_⟩
  rw [← keyFor_grant b.windows hg, hgs]
  rfl

/-- No other counter is touched. -/
theorem commit_unchanged {k : String}
    (hk : ∀ g ∈ b.grants, g.costIsTokens = true → g.key ≠ k) :
    (T.commit db now b.receipt tokensIn tokensOut).counters k = db.counters k := by
  refine commit_kept (P := fun slot => slot = db.counters k) (fun reserved slot c hc hkey _ => ?_)
    rfl
  obtain ⟨g, hg, htokens, hgk⟩ := b.grant_of_correction hc
  exact absurd (hgk.symm.trans hkey) (hk g hg htokens)

theorem corrects_commit (hnonneg : ∀ k, 0 ≤ used (db.counters k)) {h : Held}
    (hh : db.held b.key = some h) :
    Corrects b h.amounts (tokensIn + tokensOut) db
      (T.commit db now b.receipt tokensIn tokensOut) where
  tokens g hg htokens x hx := by
    have hkey : g.key ∈ b.receipt.counterKeys := List.mem_map_of_mem hg
    have hne : b.receipt.windows ≠ [] := List.ne_nil_of_mem (List.mem_map_of_mem hg)
    have hvalue : 0 ≤ x.value := by
      have hused := hnonneg g.key
      rwa [hx] at hused
    rcases (b.plain hg htokens).commit_counter rfl hne hh with ⟨hno, -⟩ | ⟨-, c, hactual, hafter⟩
    · exact absurd hkey hno
    · obtain ⟨y, hy, hcorrected⟩ := corrected_some hvalue c
      rw [hx, hy] at hafter
      exact ⟨y, hafter, by rw [hcorrected, hactual]⟩
  requests g hg hrequest := by
    refine b.commit_unchanged fun g' hg' htokens hkey => ?_
    rw [b.eq_of_key hg hg' hkey, hrequest] at htokens
    cases htokens
  others k hk := b.commit_unchanged fun g hg _ hkey => hk (List.mem_map.mpr ⟨g, hg, hkey⟩)

end Booking

/-! ## A reservation is settled once -/

/-- A settlement leaves no hash. -/
theorem held_after_settles {key : String} {s : Script T} (hs : s.settles = some key) :
    (db.after s).held key = none := by
  have hgone : ∀ b : Booking T, (if b.grants = [] then none else some b.key) = some key →
      b.receipt.windows ≠ [] ∧ reservationKey b.receipt = key := by
    intro b hb
    split_ifs at hb with hempty
    exact ⟨fun hnil => hempty (List.map_eq_nil_iff.mp hnil), Option.some.inj hb⟩
  cases s with
  | reserve now b => cases hs
  | commit now b tokensIn tokensOut =>
    obtain ⟨hne, rfl⟩ := hgone b hs
    change (T.commit db now b.receipt tokensIn tokensOut).held _ = none
    cases hh : db.held (reservationKey b.receipt) with
    | none => rwa [commit_of_none hh]
    | some h =>
      rw [commit_held hne hh]
      exact Function.update_self _ _ _
  | release b =>
    obtain ⟨hne, rfl⟩ := hgone b hs
    change (Tracker.release db b.receipt).held _ = none
    cases hh : db.held (reservationKey b.receipt) with
    | none => rwa [release_of_none hh]
    | some h =>
      rw [release_held hne hh]
      exact Function.update_self _ _ _
  | lapse clock counters hashes => cases hs

/-- And where there is none, one does nothing. -/
theorem after_of_none {key : String} (hnone : db.held key = none) {s : Script T}
    (hs : s.settles = some key) : db.after s = db := by
  have hkey : ∀ b : Booking T, (if b.grants = [] then none else some b.key) = some key →
      reservationKey b.receipt = key := by
    intro b hb
    split_ifs at hb
    exact Option.some.inj hb
  cases s with
  | reserve now b => cases hs
  | commit now b tokensIn tokensOut => exact commit_of_none (hkey b hs ▸ hnone)
  | release b => exact release_of_none (hkey b hs ▸ hnone)
  | lapse clock counters hashes => cases hs

/-- No script but a call that takes the key writes its hash. -/
theorem held_after_untaken {key : String} (hnone : db.held key = none) {s : Script T}
    (hs : ¬ s.Takes db key) : (db.after s).held key = none := by
  cases s with
  | reserve now b =>
    rcases after_reserve db now b with hsame | ⟨⟨decision, hcall, htaken⟩, -, hcharged⟩
    · rwa [hsame]
    · by_cases hempty : b.grants = []
      · rcases hcharged with ⟨-, hsame⟩ | ⟨hne, -⟩
        · rwa [hsame]
        · exact absurd hempty hne
      · -- A call that is granted takes its own key.
        have hne : key ≠ b.key := by
          rintro rfl
          exact hs ⟨rfl, hempty, decision, _, hcall, htaken⟩
        exact (hcharged.held hne).trans hnone
  | commit now b tokensIn tokensOut => exact commit_held_none hnone
  | release b => exact release_held_none hnone
  | lapse clock counters hashes =>
    change (if hashes key then none else db.held key) = none
    rw [hnone, ite_self]

theorem held_afterAll_untaken {key : String} (hnone : db.held key = none)
    {scripts : List (Script T)} (hs : Script.Untaken db key scripts) :
    (db.afterAll scripts).held key = none := by
  induction scripts generalizing db with
  | nil => exact hnone
  | cons s scripts ih => exact ih (held_after_untaken hnone hs.1) hs.2

end

/-- **Every run is orderly**: no counter is negative in any state it reaches, a commit there
corrects the token counters of its call and leaves the others, and a reservation is settled
once. -/
theorem orderly_afterAll (T : Tracker) (scripts : List (Script T)) :
    Orderly T (Db.afterAll {} scripts) where
  nonneg k c hc := by
    have hstart : ∀ k, 0 ≤ used (({} : Db).counters k) := fun _ => le_refl 0
    have hused := nonneg_afterAll hstart scripts k
    rwa [hc] at hused
  corrects now b tokensIn tokensOut h hh :=
    b.corrects_commit (nonneg_afterAll (fun _ => le_refl 0) scripts) hh
  once key first second between hfirst hsecond hbetween :=
    after_of_none (held_afterAll_untaken (held_after_settles hfirst) hbetween) hsecond

/-- A call of the answer lane. -/
def minuteCall : Booking Desk.perMinute :=
  .ofLane Desk.perMinute (.answer none) oneModel "system" 900 "a" (by decide) fun h => by
    obtain ⟨⟨_, hcap⟩, -⟩ := h
    cases hcap

-- so that instants are computed with
unseal Rat.add Rat.sub Rat.mul Rat.inv Rat.ofScientific

-- the second commit and the release find nothing
example : (Db.afterAll {} [.reserve 0 minuteCall, .commit 1 minuteCall 300 100,
    .commit 2 minuteCall 500 500, .release minuteCall]).get
      (quotaKey "system" "p" "m" .tpm) = 400 := by decide

end Quota

end LlmGateway
