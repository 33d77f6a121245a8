import LlmGateway.Quota.Hints
import LlmGateway.Routing.Laws
import LlmGateway.Routing.Scopes

/-!
# Whose budget a run spends

The failover loop with the credentials of a user and the quota tracker behind
it. Every counter the tracker writes for an attempt is on the scope of that
attempt's own resolution, so a run on private keys alone leaves the shared
counters alone.
-/

namespace LlmGateway

namespace Router

open Effects KeysResolution Quota

/-! ## The services of a run -/

/-- What `reserve` may answer: the refusal of a Redis that does not, or what the script says of
some database. -/
def Decides (T : Tracker) (spec : ModelSpec) (scope : String) (estimatedTokens : ℤ)
    (requestId : String) (extra : List WindowGrant) (d : QuotaDecision) : Prop :=
  d = { allowed := false, degraded := true } ∨ ∃ db now db',
    T.reserveWindows db now (T.answerGrants spec scope extra) scope spec.provider spec.model
      estimatedTokens requestId = .ok (d, db')

/-- **The services.** The credentials answer resolutions, and between any two questions may have
resolved for others; the tracker answers reservations. -/
def services (T : Tracker) (user : Uuid) : World iface (Credentials user)
  | c, .forProvider provider model, r, c' =>
    ∃ env between, c.Moves between ∧ between.forProvider env provider model = (r, c')
  | c, .reserve spec scope estimatedTokens requestId extra, r, c' =>
    c.Moves c' ∧ ∀ d, r = .ok d → Decides T spec scope estimatedTokens requestId extra d
  | c, _, _, c' => c.Moves c'

/-- The counter a command of a hint sets. -/
def target : Hints.Ask → Option String
  | .setEx k _ _ | .setKeepTtl k _ => some k
  | _ => none

/-- **The counters a question may write**, on whatever database and at whatever time. -/
inductive Writes (T : Tracker) (k : String) : Event iface → Prop
  | reserve {spec : ModelSpec} {scope : String} {estimatedTokens : ℤ} {requestId : String}
      {extra : List WindowGrant} {r : Except Exn QuotaDecision} {db db' : Db} {now : Seconds}
      {d : QuotaDecision}
      (hcall : T.reserveWindows db now (T.answerGrants spec scope extra) scope spec.provider
        spec.model estimatedTokens requestId = .ok (d, db'))
      (hk : db'.counters k ≠ db.counters k) :
      Writes T k ⟨.reserve spec scope estimatedTokens requestId extra, r⟩
  | commit {reservation : Reservation} {tokensIn tokensOut : ℤ} {a : Settled} {db : Db}
      {now : Seconds}
      (hk : (T.commit db now reservation tokensIn tokensOut).counters k ≠ db.counters k) :
      Writes T k ⟨.commit reservation tokensIn tokensOut, a⟩
  | hint {spec : ModelSpec} {scope : String} {hint : QuotaHint} {a : Except Exn Unit}
      {now : Seconds} {tr : List (Event Hints.iface)} {r : Except Hints.Fault Unit}
      {e : Event Hints.iface} (hr : (Hints.applyHint T spec scope hint now).Runs tr r)
      (he : e ∈ tr) (hk : target e.ask = some k) :
      Writes T k ⟨.applyHint spec scope hint, a⟩

/-- A counter of the shared pool. -/
def SystemScoped (k : String) : Prop := ∃ rest, k = "q:" ++ systemScope ++ ":" ++ rest

/-- A personal cap is taken. -/
def TakesCap (e : Event iface) : Prop :=
  match e.ask with
  | .reserve _ _ _ _ extra => extra ≠ []
  | _ => False

/-! ## What the tracker writes -/

section

variable {T : Tracker} {spec : ModelSpec} {scope k : String}

/-- A reservation writes the keys of its grants. -/
theorem key_of_reserve {db db' : Db} {now : Seconds} {grants : List WindowGrant}
    {provider model requestId : String} {estimatedTokens : ℤ} {d : QuotaDecision}
    (hcall : T.reserveWindows db now grants scope provider model estimatedTokens requestId =
      .ok (d, db')) (hk : db'.counters k ≠ db.counters k) : k ∈ grants.map (·.key) := by
  by_contra hnot
  rcases reserve_cases hcall with ⟨-, rfl⟩ | ⟨-, -, hcharged⟩
  · exact hk rfl
  · exact hk (hcharged.counter_of_not_mem hnot)

/-- And a commit those of its receipt. -/
theorem key_of_commit {db : Db} {now : Seconds} {grants : List WindowGrant}
    {provider model requestId : String} {estimatedTokens tokensIn tokensOut : ℤ}
    (hk : (T.commit db now (Tracker.receipt grants scope provider model estimatedTokens requestId)
      tokensIn tokensOut).counters k ≠ db.counters k) : k ∈ grants.map (·.key) := by
  by_contra hnot
  refine hk (commit_kept (P := (· = db.counters k)) (fun reserved slot c hc hkey _ => ?_) rfl)
  obtain ⟨w, hw, rfl⟩ := List.mem_map.mp hc
  have htaken : w.window ∈ grants.map (·.window) := by
    have := (List.mem_filter.mp hw).2
    simp only [decide_eq_true_eq] at this
    exact this.2
  obtain ⟨g, hg, -, hfor⟩ :=
    Tracker.Plain.keyFor_receipt scope provider model estimatedTokens requestId htaken
  exact absurd (List.mem_map.mpr ⟨g, hg, hfor.symm.trans hkey⟩) hnot

/-- The keys of the answer lane's grants. -/
theorem key_of_answerGrants {extra : List WindowGrant}
    (hk : k ∈ (T.answerGrants spec scope extra).map (·.key)) :
    (∃ w, k = quotaKey scope spec.provider spec.model w) ∨ k ∈ extra.map (·.key) := by
  obtain ⟨g, hg, rfl⟩ := List.mem_map.mp hk
  rcases List.mem_append.mp hg with hg | hg
  · obtain ⟨w, -, rfl⟩ := List.mem_map.mp hg
    exact .inl ⟨w.window, rfl⟩
  · exact .inr (List.mem_map_of_mem hg)

/-- A hint sets counters of its model only. -/
abbrev Sets (spec : ModelSpec) (scope : String) {α : Type} (p : Hints.Eff α) : Prop :=
  Upholds (fun (_ : Unit) _ => ())
    (fun _ e => ∀ k, target e.ask = some k → ∃ w, k = quotaKey scope spec.provider spec.model w)
    (fun _ => True) p fun _ _ => True

theorem sets_bind {α β : Type} {p : Hints.Eff α} {f : α → Hints.Eff β} (hp : Sets spec scope p)
    (hf : ∀ a, Sets spec scope (f a)) : Sets spec scope (p >>= f) :=
  Upholds.bind hp hf fun _ _ _ => trivial

theorem sets_reconcile (T : Tracker) (w : WindowSpec) (used : ℤ) (now : Seconds) :
    Sets spec scope (Hints.reconcile T.pacific (quotaKey scope spec.provider spec.model w.window)
      w used now) := by
  have hset : ∀ k, some (quotaKey scope spec.provider spec.model w.window) = some k →
      ∃ w, k = quotaKey scope spec.provider spec.model w :=
    fun k hk => ⟨w.window, (Option.some.inj hk).symm⟩
  refine sets_bind (Upholds.ask fun _ _ _ => ⟨fun _ => nofun, trivial⟩) fun current => ?_
  split
  · exact Upholds.ret fun _ _ => trivial
  split
  · exact Upholds.ask fun _ _ _ => ⟨hset, trivial⟩
  refine sets_bind (Upholds.ask fun _ _ _ => ⟨fun _ => nofun, trivial⟩) fun left => ?_
  split
  · exact Upholds.ask fun _ _ _ => ⟨hset, trivial⟩
  · exact Upholds.ask fun _ _ _ => ⟨hset, trivial⟩

theorem sets_applyOne (T : Tracker) (costIsTokens : Bool) (remaining : ℤ)
    (reportedResetS : Option Seconds) (now : Seconds) :
    Sets spec scope
      (Hints.applyOne T spec scope costIsTokens remaining reportedResetS now) := by
  unfold Hints.applyOne
  dsimp only
  split
  · exact Upholds.ret fun _ _ => trivial
  · refine Upholds.attempt (sets_reconcile T _ _ now) fun r => ?_
    cases r with
    | ok _ => exact Upholds.ret fun _ _ => trivial
    | error _ => exact Upholds.ask (f := .ok) fun _ _ _ => ⟨fun _ => nofun, trivial⟩

theorem sets_applyHint (T : Tracker) (hint : QuotaHint) (now : Seconds) :
    Sets spec scope (Hints.applyHint T spec scope hint now) := by
  unfold Hints.applyHint
  cases hint.requestsRemaining with
  | none =>
    cases hint.tokensRemaining with
    | none => exact Upholds.ret fun _ _ => trivial
    | some n => exact sets_applyOne T true n _ now
  | some m =>
    refine sets_bind (sets_applyOne T false m _ now) fun _ => ?_
    cases hint.tokensRemaining with
    | none => exact Upholds.ret fun _ _ => trivial
    | some n => exact sets_applyOne T true n _ now

/-- **A hint writes counters of its scope and model.** -/
theorem key_of_hint {hint : QuotaHint} {now : Seconds} {tr : List (Event Hints.iface)}
    {r : Except Hints.Fault Unit} {e : Event Hints.iface}
    (hr : (Hints.applyHint T spec scope hint now).Runs tr r) (he : e ∈ tr)
    (hk : target e.ask = some k) : ∃ w, k = quotaKey scope spec.provider spec.model w := by
  obtain ⟨before, behind, rfl⟩ := List.append_of_mem he
  exact ((sets_applyHint T hint now).runs (s := ()) trivial hr).1 before e behind rfl k hk

end

/-! ## The accounts of a run -/

/-- **An attempt in order**: a resolution of the credentials, and a receipt of the tracker's on
its scope. -/
structure Attempt.Backed (T : Tracker) (user : Uuid) (a : Attempt) : Prop where
  resolution : Resolution user a.provider a.resolved
  receipt : ∀ r, a.reservation = some r → ∃ spec estimatedTokens requestId, a.Of spec ∧
    r = Tracker.receipt (T.answerGrants spec a.resolved.scope (extraGrants spec a.resolved))
      a.resolved.scope spec.provider spec.model estimatedTokens requestId

section

variable {T : Tracker} {user : Uuid} {c c' : Credentials user} {tr : List (Event iface)}

/-- What a decision grants is the receipt. -/
theorem Decides.receipt {spec : ModelSpec} {scope requestId : String} {estimatedTokens : ℤ}
    {extra : List WindowGrant} {d : QuotaDecision} {r : Reservation}
    (h : Decides T spec scope estimatedTokens requestId extra d) (hr : granted d = some r) :
    r = Tracker.receipt (T.answerGrants spec scope extra) scope spec.provider spec.model
      estimatedTokens requestId := by
  unfold granted at hr
  rcases h with rfl | ⟨db, now, db', hcall⟩
  · cases hr
  · split at hr
    · rcases reserve_cases hcall with ⟨hnone, -⟩ | ⟨hsome, -, -⟩
      · rw [hnone] at hr
        cases hr
      · rw [hsome] at hr
        exact (Option.some.inj hr).symm
    · cases hr

/-- What the services keep to, one event at a time. -/
def Serviced (T : Tracker) (user : Uuid) (e : Event iface) : Prop :=
  match e with
  | ⟨.forProvider provider _, .ok r⟩ => Resolution user provider r
  | ⟨.reserve spec scope estimatedTokens requestId extra, .ok d⟩ =>
    Decides T spec scope estimatedTokens requestId extra d
  | _ => True

theorem serviced_of_accepts (h : (services T user).Accepts c tr c') :
    ∀ e ∈ tr, Serviced T user e := by
  induction h with
  | nil => exact fun e he => absurd he List.not_mem_nil
  | @cons c c' c'' q a tr hw _ ih =>
    rintro e he
    rcases List.mem_cons.mp he with rfl | he
    · cases q with
      | forProvider provider model =>
        cases a with
        | error e => trivial
        | ok r =>
          obtain ⟨env, between, -, hanswer⟩ := hw
          exact Credentials.resolution (congrArg Prod.fst hanswer)
      | reserve spec scope estimatedTokens requestId extra =>
        cases a with
        | error e => trivial
        | ok d => exact hw.2 d rfl
      | _ => exact True.intro
    · exact ih e he

/-- One event keeps the attempts in order. -/
theorem backed_note {as : List Attempt} {e : Event iface} (hown : Own as e)
    (he : Serviced T user e) (h : ∀ a ∈ as, a.Backed T user) :
    ∀ a ∈ noteAttempt as e, a.Backed T user := by
  obtain ⟨q, r⟩ := e
  cases q with
  | forProvider provider model =>
    cases r with
    | error e => exact h
    | ok resolved =>
      intro a ha
      rcases List.mem_cons.mp ha with rfl | ha
      · exact ⟨he, fun _ => nofun⟩
      · exact h a ha
  | reserve spec scope estimatedTokens requestId extra =>
    cases r with
    | error e => exact h
    | ok d =>
      obtain ⟨a, ha, hof, rfl, rfl⟩ := hown
      cases as with
      | nil => cases ha
      | cons b rest =>
        cases ha
        intro a' ha'
        rcases List.mem_cons.mp ha' with rfl | ha'
        · exact ⟨(h _ List.mem_cons_self).resolution, fun r hr =>
            ⟨spec, estimatedTokens, requestId, hof, he.receipt hr⟩⟩
        · exact h a' (List.mem_cons_of_mem _ ha')
  | _ => exact h

/-- **What an event writes, its own attempt is charged for.** -/
theorem charges_of_writes {as : List Attempt} {e : Event iface} {k : String} (hown : Own as e)
    (h : ∀ a ∈ as, a.Backed T user) (hw : Writes T k e) : ∃ a ∈ as.head?, a.Charges k := by
  cases hw with
  | reserve hcall hk =>
    obtain ⟨a, ha, hof, rfl, rfl⟩ := hown
    exact ⟨a, ha, _, hof, key_of_answerGrants (key_of_reserve hcall hk)⟩
  | commit hk =>
    obtain ⟨a, ha, hheld⟩ := hown
    obtain ⟨spec, estimatedTokens, requestId, hof, rfl⟩ :=
      (h a (List.mem_of_head? ha)).receipt _ hheld
    exact ⟨a, ha, spec, hof, key_of_answerGrants (key_of_commit hk)⟩
  | @hint spec scope hint a now tr r e hr he hk =>
    obtain ⟨a, ha, hof, rfl⟩ := hown
    exact ⟨a, ha, spec, hof, .inl (key_of_hint hr he hk)⟩

/-- A user's scope is not the system's. -/
theorem not_systemScoped (user : Uuid) (provider model : String) (w : QuotaWindow) :
    ¬ SystemScoped (quotaKey user.str provider model w) := by
  rintro ⟨rest, hkey⟩
  obtain ⟨d, hd⟩ := user.str_head
  have hthird := congrArg (fun key => key.toList[2]?) hkey
  obtain ⟨cs, hcs⟩ : ∃ cs, user.str.toList = Uuid.digitChar d :: cs := by
    cases hu : user.str.toList with
    | nil =>
      rw [hu] at hd
      cases hd
    | cons x xs =>
      rw [hu] at hd
      exact ⟨xs, by rw [← Option.some.inj hd]⟩
  simp only [quotaKey, modelScoped, systemScope, String.toList_append, hcs] at hthird
  have hs : Uuid.digitChar d = 's' := by simpa using hthird
  exact Uuid.digitChar_ne d hs

/-- **A private attempt charges its user's counters only.** -/
theorem Attempt.Backed.not_systemScoped {a : Attempt} {k : String} (h : a.Backed T user)
    (hprivate : a.resolved.pool = .«private») (hk : a.Charges k) : ¬ SystemScoped k := by
  obtain ⟨spec, -, ⟨w, rfl⟩ | hk⟩ := hk
  · rw [h.resolution.scope, hprivate]
    exact Router.not_systemScoped user _ _ w
  · simp [extraGrants, hprivate] at hk

/-- What a run does whose events are their attempts' own and whose services are at work: every
counter written is one the attempt at hand is charged for. -/
theorem charges_of_run (hown : Heeds noteAttempt Own [] tr)
    (hserved : (services T user).Accepts c tr c') {before behind : List (Event iface)}
    {e : Event iface} {k : String} (heq : tr = before ++ e :: behind) (hw : Writes T k e) :
    ∃ a ∈ (attempts before).head?, a.Backed T user ∧ a.Charges k := by
  have hserviced := serviced_of_accepts hserved
  have hbacked : ∀ a ∈ attempts before, a.Backed T user :=
    hown.prefix (J := fun as => ∀ a ∈ as, a.Backed T user) nofun
      (fun as e he hok h => backed_note hok (hserviced e he) h) heq
  obtain ⟨a, ha, hcharges⟩ := charges_of_writes (hown before e behind heq) hbacked hw
  exact ⟨a, ha, hbacked a (List.mem_of_head? ha), hcharges⟩

/-- Where every candidate resolves to a key of the user's own, so is every attempt. -/
theorem private_of_run (hown : Heeds noteAttempt Own [] tr)
    (hprivate : ∀ provider model resolved,
      (⟨.forProvider provider model, .ok resolved⟩ : Event iface) ∈ tr →
        resolved.pool = .«private»)
    {before behind : List (Event iface)} (heq : tr = before ++ behind) :
    ∀ a ∈ attempts before, a.resolved.pool = .«private» := by
  refine hown.prefix (J := fun as => ∀ a ∈ as, a.resolved.pool = .«private») nofun ?_ heq
  rintro as ⟨q, r⟩ he hok h
  cases q with
  | forProvider provider model =>
    cases r with
    | error e => exact h
    | ok resolved =>
      intro a ha
      rcases List.mem_cons.mp ha with rfl | ha
      · exact hprivate _ _ _ he
      · exact h a ha
  | reserve spec scope estimatedTokens requestId extra =>
    cases r with
    | error e => exact h
    | ok d =>
      cases as with
      | nil => exact h
      | cons b rest =>
        intro a ha
        rcases List.mem_cons.mp ha with rfl | ha
        · exact h b List.mem_cons_self
        · exact h a (List.mem_cons_of_mem _ ha)
  | _ => exact h

/-- **A run on private keys alone** takes no personal cap and writes no shared counter. -/
theorem spares_system (hown : Heeds noteAttempt Own [] tr)
    (hserved : (services T user).Accepts c tr c')
    (hprivate : ∀ provider model resolved,
      (⟨.forProvider provider model, .ok resolved⟩ : Event iface) ∈ tr →
        resolved.pool = .«private») :
    ∀ e ∈ tr, ¬ TakesCap e ∧ ∀ k, SystemScoped k → ¬ Writes T k e := by
  intro e he
  obtain ⟨before, behind, heq⟩ := List.append_of_mem he
  have hpools := private_of_run hown hprivate heq
  refine ⟨fun hcap => ?_, fun k hk hw => ?_⟩
  · obtain ⟨q, r⟩ := e
    cases q with
    | reserve spec scope estimatedTokens requestId extra =>
      obtain ⟨a, ha, -, -, rfl⟩ := hown before _ behind heq
      exact hcap (by simp [extraGrants, hpools a (List.mem_of_head? ha)])
    | _ => exact hcap
  · obtain ⟨a, ha, hbacked, hcharges⟩ := charges_of_run hown hserved heq hw
    exact hbacked.not_systemScoped (hpools a (List.mem_of_head? ha)) hcharges hk

end

/-- **Every attempt pays on its own account.** In every run of either path, whatever is answered,
each event takes its credential, scope, grants and reservation from the attempt it is part of, and
the trail and the outcome report each attempt's own pool. With the credentials of a user and the
tracker at work, every counter written is one the attempt at hand is charged for; a run on private
keys alone takes no personal cap and writes no counter of the shared pool. And the scope of every
resolution is the one its pool stands for. -/
theorem attempts_pay_their_own (T : Tracker) (user : Uuid) (cfg : Config)
    (chain : List ModelSpec) :
    (∀ tr r, (route cfg chain).Runs tr r → Heeds noteAttempt Own [] tr ∧
      ∀ x, r = .ok x → Reports ReportsOutcome (attempts tr) x) ∧
    (∀ tr r, (routeStream cfg chain).Runs tr r → Heeds noteAttempt Own [] tr ∧
      ∀ x, r = .ok x → Reports (fun _ _ => True) (attempts tr) x) ∧
    (∀ tr, ((∃ r, (route cfg chain).Runs tr r) ∨ ∃ r, (routeStream cfg chain).Runs tr r) →
      ∀ c c' : Credentials user, (services T user).Accepts c tr c' →
        (∀ before e behind k, tr = before ++ e :: behind → Writes T k e →
          ∃ a ∈ (attempts before).head?, a.Charges k) ∧
        ((∀ provider model resolved,
            (⟨.forProvider provider model, .ok resolved⟩ : Event iface) ∈ tr →
              resolved.pool = .«private») →
          ∀ e ∈ tr, ¬ TakesCap e ∧ ∀ k, SystemScoped k → ¬ Writes T k e)) ∧
    (∀ (c : Credentials user) env provider model resolved,
      (c.forProvider env provider model).1 = .ok resolved →
        quotaScopeFor (some resolved.pool) user = resolved.scope) := by
  refine ⟨fun tr r hr => route_own hr, fun tr r hr => routeStream_own hr, ?_, ?_⟩
  · intro tr hruns c c' hserved
    have hown : Heeds noteAttempt Own [] tr := by
      rcases hruns with ⟨r, hr⟩ | ⟨r, hr⟩
      · exact (route_own hr).1
      · exact (routeStream_own hr).1
    refine ⟨fun before e behind k heq hw => ?_, spares_system hown hserved⟩
    obtain ⟨a, ha, -, hcharges⟩ := charges_of_run hown hserved heq hw
    exact ⟨a, ha, hcharges⟩
  · intro c env provider model resolved hr
    exact (Credentials.resolution hr).scope.symm

/-! ### A mixed chain -/

/-- A user with a key for one provider and a cap on the other. -/
def ada : Uuid := ⟨List.replicate 32 10, by decide⟩

def adasRows : Surroundings where
  load := .ok { rows := [⟨ada, "groq", "token"⟩], allocations := [⟨"gemini", "flash", 5⟩] }
  decrypt _ := some "gsk"
  systemKey _ := .ok "sk"

/-- A tracker with no published limits. -/
def unlimited : Tracker where
  limits _ _ := none
  effectiveLimit _ n := n
  perceptionLimit _ _ n := n
  pacific := utc

/-- The user's own key is refused; the shared pool answers. -/
def mixed : Credentials ada → (q : Ask) → Ans q × Credentials ada
  | c, .forProvider provider model => c.forProvider adasRows provider model
  | c, .reserve spec scope tokens requestId extra =>
    (match unlimited.reserveWindows {} 0 (unlimited.answerGrants spec scope extra) scope
        spec.provider spec.model tokens requestId with
      | .ok (d, _) => .ok d
      | .error text => .error (.other text), c)
  | c, .complete spec payload key =>
    (if spec.provider = "groq" then .error (.provider (failure .authFailed spec))
      else oblige (.complete spec payload key), c)
  | c, q => (oblige q, c)

theorem mixed_services (c : Credentials ada) (q : Ask) :
    services unlimited ada c q (mixed c q).1 (mixed c q).2 := by
  cases q with
  | forProvider provider model => exact ⟨adasRows, c, .refl, rfl⟩
  | reserve spec scope tokens requestId extra =>
    refine ⟨.refl, fun d hd => .inr ?_⟩
    change (match unlimited.reserveWindows {} 0 (unlimited.answerGrants spec scope extra) scope
        spec.provider spec.model tokens requestId with
      | .ok (d, _) => .ok d
      | .error text => .error (.other text) : Except Exn QuotaDecision) = .ok d at hd
    split at hd
    next d' db' hcall =>
      cases hd
      exact ⟨_, _, _, hcall⟩
    next => cases hd
  | _ => exact .refl

/-- A run over both pools: two attempts, each on its own. -/
theorem attempts_pay_their_own_mixed :
    ∃ tr c', (services unlimited ada).Accepts (.user { limits := none, tier := "free" }) tr c' ∧
      (attempts tr).map Attempt.label =
        [("gemini", "flash", .shared), ("groq", "llama", .«private»)] ∧
      Heeds noteAttempt Own [] tr ∧
      ∀ before e behind k, tr = before ++ e :: behind → Writes unlimited k e →
        ∃ a ∈ (attempts before).head?, a.Charges k := by
  have hserved := accepts_play mixed_services
    (.user { limits := none, tier := "free" }) (route {} [groq, gemini])
  have hruns := Prog.play_runs mixed (.user { limits := none, tier := "free" })
    (route {} [groq, gemini])
  obtain ⟨hroute, -, hpaid, -⟩ := attempts_pay_their_own unlimited ada {} [groq, gemini]
  exact ⟨_, _, hserved, by decide, (hroute _ _ hruns).1,
    (hpaid _ (.inl ⟨_, hruns⟩) _ _ hserved).1⟩

end Router

end LlmGateway
