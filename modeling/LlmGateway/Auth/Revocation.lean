import LlmGateway.Auth.KeyTables
import LlmGateway.Effects.Pool
import LlmGateway.Effects.Twin

/-!
# Revocation

A request on its own, whatever the others do, and then any number of them: whom
a request is served for, what is minted, and that a key which was revoked opens
no door again.
-/

namespace LlmGateway

namespace ApiKeys

open Effects

/-! ## One request -/

section

variable {ι : Type} (claimsOf : String → Option Claims) (sha256 : String → String)
  (requests : ι → Request)

/-- What a member may rely on. -/
def others (i : ι) : Rely (Store ι) where
  step s s' := (Sound claimsOf sha256 requests s → Sound claimsOf sha256 requests s' ∧ Later s s') ∧
    s'.pending i = s.pending i
  refl _ := ⟨fun h => ⟨h, .refl⟩, rfl⟩
  trans h h' := ⟨fun hs => ⟨(h'.1 (h.1 hs).1).1, (h.1 hs).2.trans (h'.1 (h.1 hs).1).2⟩,
    h'.2.trans h.2⟩

/-- What it guarantees. -/
def Leaves (i : ι) (s s' : Store ι) : Prop :=
  (Sound claimsOf sha256 requests s → Sound claimsOf sha256 requests s' ∧ Later s s') ∧
    ∀ j, i ≠ j → s'.pending j = s.pending j

/-- What a request may ask. -/
def Request.Proper (request : Request) : Ask → Prop
  | .insertKey userId keyHash _ _ _ => request.OfSession claimsOf userId ∧
      (∃ nickname, request.endpoint = .createKey nickname) ∧
        ∃ secret, Drawn secret ∧ keyHash = sha256 (keyPrefix ++ secret)
  | .revoke keyId userId => request.Revokes claimsOf keyId userId
  | _ => True

/-- Who a principal is: the user of the session that was shown, or the owner of a key that was
shown. The key is none of those that had been revoked before. -/
def Authentic (before : String → Prop) (request : Request) (principal : Principal)
    (s : Store ι) : Prop :=
  (principal.authMethod = .session → request.OfSession claimsOf principal.userId ∧
    principal.apiKeyId = none) ∧
  (principal.authMethod = .apiKey → ∃ presented, parseApiKey request.shown.apiKey = some presented ∧
    ∃ key ∈ s.tables.keys, key.keyHash = sha256 presented ∧ principal.apiKeyId = some key.id ∧
      key.userId = principal.userId ∧ ¬ before key.id)

/-- What an answer says. -/
def Right (before : String → Prop) (request : Request) (s : Store ι) : Response → Prop
  | .served principal => Authentic claimsOf sha256 before request principal s
  | .created created => parseApiKey (some created.key) = some created.key ∧
      ∃ key ∈ s.tables.keys, key.id = created.id ∧ key.keyHash = sha256 created.key ∧
        request.OfSession claimsOf key.userId
  | .listed keys => ∃ userId, request.OfSession claimsOf userId ∧
      ∀ out ∈ keys, ∃ key ∈ s.tables.keys, key.id = out.id ∧ key.userId = userId
  | .revoked => ∃ keyId, request.endpoint = .revokeKey keyId ∧ Revoked keyId s

/-- What a request comes to. -/
def Answers (before : String → Prop) (i : ι) (r : Except Raised Response) (s : Store ι) : Prop :=
  Sound claimsOf sha256 requests s ∧
    ∀ response, r = .ok response → Right claimsOf sha256 before (requests i) s response

end

section

variable {ι : Type} {claimsOf : String → Option Claims} {sha256 : String → String}
  {requests : ι → Request} {s s' : Store ι} {before : String → Prop}

theorem Authentic.later {request : Request} {principal : Principal} (hg : Later s s')
    (h : Authentic claimsOf sha256 before request principal s) :
    Authentic claimsOf sha256 before request principal s' := by
  refine ⟨h.1, fun hkey => ?_⟩
  obtain ⟨presented, hshown, key, hmem, hhash, hid, huser, hbefore⟩ := h.2 hkey
  obtain ⟨key', hmem', hkept⟩ := hg.kept key hmem
  exact ⟨presented, hshown, key', hmem', hkept.keyHash.trans hhash, hkept.id ▸ hid,
    hkept.userId.trans huser, hkept.id ▸ hbefore⟩

/-- With less that had been revoked before, less is known. -/
theorem Right.mono {request : Request} {response : Response} {before' : String → Prop}
    (hbefore : ∀ keyId, before' keyId → before keyId)
    (h : Right claimsOf sha256 before request s response) :
    Right claimsOf sha256 before' request s response := by
  cases response with
  | served principal =>
    refine ⟨h.1, fun hkey => ?_⟩
    obtain ⟨presented, hshown, key, hmem, hhash, hid, huser, hold⟩ := h.2 hkey
    exact ⟨presented, hshown, key, hmem, hhash, hid, huser, fun hb => hold (hbefore key.id hb)⟩
  | _ => exact h

theorem Right.later {request : Request} {response : Response} (hg : Later s s')
    (h : Right claimsOf sha256 before request s response) :
    Right claimsOf sha256 before request s' response := by
  cases response with
  | served principal => exact Authentic.later hg h
  | created created =>
    obtain ⟨hparse, key, hmem, hid, hhash, hsession⟩ := h
    obtain ⟨key', hmem', hkept⟩ := hg.kept key hmem
    exact ⟨hparse, key', hmem', hkept.id.trans hid, hkept.keyHash.trans hhash,
      hkept.userId ▸ hsession⟩
  | listed keys =>
    obtain ⟨userId, hsession, hkeys⟩ := h
    refine ⟨userId, hsession, fun out hout => ?_⟩
    obtain ⟨key, hmem, hid, huser⟩ := hkeys out hout
    obtain ⟨key', hmem', hkept⟩ := hg.kept key hmem
    exact ⟨key', hmem', hkept.id.trans hid, hkept.userId.trans huser⟩
  | revoked =>
    obtain ⟨keyId, hendpoint, hrevoked⟩ := h
    exact ⟨keyId, hendpoint, hg.revoked keyId hrevoked⟩

end

section

variable {ι : Type} [DecidableEq ι] {claimsOf : String → Option Claims} {sha256 : String → String}
  {requests : ι → Request} {s s' : Store ι} {i : ι} {before : String → Prop}

/-- **One statement** of a request that may ask it. -/
theorem Serves.leaves {q : Ask} {a : Ans q} (h : Serves claimsOf i s q a s')
    (hproper : (requests i).Proper claimsOf sha256 q) :
    Leaves claimsOf sha256 requests i s s' := by
  have hsame : Leaves claimsOf sha256 requests i s s := ⟨fun hs => ⟨hs, .refl⟩, fun _ _ => rfl⟩
  have hback : Leaves claimsOf sha256 requests i s (s.rollback i) :=
    ⟨fun hs => ⟨hs.rollback, later_of_tables rfl⟩, fun _ hj => s.rollback_pending_of_ne (Ne.symm hj)⟩
  have hcommit : Leaves claimsOf sha256 requests i s (s.commit Tables.apply i) :=
    ⟨fun hs => ⟨hs.commit, .commit hs.ids⟩, fun _ hj => s.commit_pending_of_ne _ (Ne.symm hj)⟩
  have hpush : ∀ {write : Write}, (requests i).Writes claimsOf sha256 write →
      (∀ key, write = .insertKey key →
        Free s ApiKey.id key.id ∧ Free s ApiKey.keyHash key.keyHash) →
      Leaves claimsOf sha256 requests i s (s.push i write) := fun {write} hwrites hfree =>
    ⟨fun hs => ⟨hs.push hwrites hfree, later_of_tables rfl⟩,
      fun _ hj => s.push_pending_of_ne write (Ne.symm hj)⟩
  cases h with
  | verifyToken => exact hsame
  | refuseToken => exact hsame
  | upsertUser => exact hpush trivial fun key hk => by cases hk
  | upsertUserFails => exact hback
  | getActiveWithUser => exact hsame
  | getActiveWithUserFails => exact hback
  | now => exact hsame
  | touchLastUsed => exact hpush trivial fun key hk => by cases hk
  | touchLastUsedFails => exact hback
  | generateSecret => exact hsame
  | insertKey _ _ _ _ _ _ _ hid hhash =>
    refine hpush ⟨hproper, rfl⟩ ?_
    rintro key hk
    cases hk
    exact ⟨hid, hhash⟩
  | insertKeyFails => exact hback
  | revoke => exact hpush hproper fun key hk => by cases hk
  | revokeFails => exact hback
  | listForUser => exact hsame
  | listForUserFails => exact hback
  | commit => exact hcommit
  | commitUnheard => exact hcommit
  | commitFails => exact hback

/-- One question, of a member that knows `K`, which nobody else undoes. -/
theorem settles_ask {α : Type} {q : Ask} {k : Ans q → Eff α} {Q : Except Raised α → Store ι → Prop}
    {K : Store ι → Prop}
    (hK : ∀ s s', Later s s' → s'.pending i = s.pending i → K s → K s')
    (hproper : (requests i).Proper claimsOf sha256 q)
    (hs : Sound claimsOf sha256 requests s) (hk : K s)
    (h : ∀ s a s', Sound claimsOf sha256 requests s → Sound claimsOf sha256 requests s' → K s →
      Later s s' → Serves claimsOf i s q a s' →
      Settles (Serves claimsOf i) (others claimsOf sha256 requests i)
        (Leaves claimsOf sha256 requests i) (k a) Q s') :
    Settles (Serves claimsOf i) (others claimsOf sha256 requests i)
      (Leaves claimsOf sha256 requests i) (.ask q k) Q s := by
  intro s₁ hr a s₂ hw
  obtain ⟨hs₁, hg⟩ := hr.1 hs
  have hleaves := hw.leaves hproper
  exact ⟨hleaves, h s₁ a s₂ hs₁ (hleaves.1 hs₁).1 (hK s s₁ hg hr.2 hk) (hleaves.1 hs₁).2 hw⟩

theorem settles_raise (hs : Sound claimsOf sha256 requests s) (raised : Raised) :
    Settles (Serves claimsOf i) (others claimsOf sha256 requests i)
      (Leaves claimsOf sha256 requests i) (.raise raised)
      (Answers claimsOf sha256 requests before i) s :=
  fun _ hr => ⟨(hr.1 hs).1, fun _ hok => by cases hok⟩

theorem settles_answer (hs : Sound claimsOf sha256 requests s) {response : Response}
    (h : Right claimsOf sha256 before (requests i) s response) :
    Settles (Serves claimsOf i) (others claimsOf sha256 requests i)
      (Leaves claimsOf sha256 requests i) (.ret response)
      (Answers claimsOf sha256 requests before i) s := by
  intro s' hr
  obtain ⟨hs', hg⟩ := hr.1 hs
  refine ⟨hs', fun other hok => ?_⟩
  rw [← Except.ok.inj hok]
  exact h.later hg

/-- A commit, behind which there is more to do. -/
theorem settles_commit {k : Except Exn Unit → Eff Response} {K : Store ι → Prop}
    (hfail : ∀ e, k (.error e) = .raise (.exn e))
    (hK : ∀ s s', Later s s' → s'.pending i = s.pending i → K s → K s')
    (hs : Sound claimsOf sha256 requests s) (hk : K s)
    (hf : ∀ s, Sound claimsOf sha256 requests s → K s →
      Sound claimsOf sha256 requests (s.commit Tables.apply i) → Later s (s.commit Tables.apply i) →
      Settles (Serves claimsOf i) (others claimsOf sha256 requests i)
        (Leaves claimsOf sha256 requests i) (k (.ok ())) (Answers claimsOf sha256 requests before i)
        (s.commit Tables.apply i)) :
    Settles (Serves claimsOf i) (others claimsOf sha256 requests i)
      (Leaves claimsOf sha256 requests i) (.ask .commit k)
      (Answers claimsOf sha256 requests before i) s := by
  refine settles_ask hK trivial hs hk ?_
  intro s a s' hs hs' hk hg hw
  cases hw with
  | commit => exact hf s hs hk hs' hg
  | commitUnheard e =>
    rw [hfail]
    exact settles_raise hs' _
  | commitFails e =>
    rw [hfail]
    exact settles_raise hs' _

/-- What a lookup finds is active. -/
theorem of_activeWithUser {t : Tables} {keyHash : String} {key : ApiKey} {user : User}
    (h : t.activeWithUser keyHash = some (key, user)) :
    key ∈ t.keys ∧ key.keyHash = keyHash ∧ key.isActive = true ∧ user.id = key.userId := by
  obtain ⟨found, hfound, h⟩ := Option.bind_eq_some_iff.mp h
  obtain ⟨owner, howner, h⟩ := Option.bind_eq_some_iff.mp h
  obtain ⟨rfl, rfl⟩ := Prod.mk.inj (Option.some.inj h)
  have hboth : found.keyHash = keyHash ∧ found.isActive = true := by
    simpa using List.find?_some hfound
  have hid : owner.id = found.userId := by simpa using List.find?_some howner
  exact ⟨List.mem_of_find?_eq_some hfound, hboth.1, hboth.2, hid⟩

/-- The door, with a session token. -/
theorem settles_principalFromJwt {token : String} {f : Principal → Eff Response}
    (htoken : bearerToken (requests i).shown.authorization = .ok (some token))
    (hs : Sound claimsOf sha256 requests s)
    (hf : ∀ s principal, Sound claimsOf sha256 requests s →
      Authentic claimsOf sha256 before (requests i) principal s →
      Settles (Serves claimsOf i) (others claimsOf sha256 requests i)
        (Leaves claimsOf sha256 requests i) (f principal)
        (Answers claimsOf sha256 requests before i) s) :
    Settles (Serves claimsOf i) (others claimsOf sha256 requests i)
      (Leaves claimsOf sha256 requests i) (principalFromJwt token >>= f)
      (Answers claimsOf sha256 requests before i) s := by
  refine settles_ask (K := fun _ => True) (fun _ _ _ _ h => h) trivial hs trivial ?_
  intro s a s' _ hs' _ _ hw
  cases hw with
  | refuseToken => exact settles_raise hs' _
  | @verifyToken _ _ claims hclaims =>
    refine settles_ask (K := fun _ => True) (fun _ _ _ _ h => h) trivial hs' trivial ?_
    intro s a s' _ hs' _ _ hw
    cases hw with
    | upsertUserFails _ _ _ e => cases e <;> exact settles_raise hs' _
    | upsertUser =>
      refine settles_commit (K := fun _ => True) (fun _ => rfl) (fun _ _ _ _ h => h) hs' trivial ?_
      intro s hs _ hs' _
      refine hf _ _ hs' ⟨fun _ => ⟨⟨token, claims, htoken, hclaims, rfl⟩, rfl⟩, ?_⟩
      intro hkey
      cases hkey

/-- The door, with a key. -/
theorem settles_principalFromApiKey {presented : String} {f : Principal → Eff Response}
    (hparse : parseApiKey (requests i).shown.apiKey = some presented)
    (hs : Sound claimsOf sha256 requests s) (hbefore : ∀ keyId, before keyId → Revoked keyId s)
    (hf : ∀ s principal, Sound claimsOf sha256 requests s →
      Authentic claimsOf sha256 before (requests i) principal s →
      Settles (Serves claimsOf i) (others claimsOf sha256 requests i)
        (Leaves claimsOf sha256 requests i) (f principal)
        (Answers claimsOf sha256 requests before i) s) :
    Settles (Serves claimsOf i) (others claimsOf sha256 requests i)
      (Leaves claimsOf sha256 requests i) (principalFromApiKey sha256 presented >>= f)
      (Answers claimsOf sha256 requests before i) s := by
  refine settles_ask (K := fun s => ∀ keyId, before keyId → Revoked keyId s)
    (fun _ _ hg _ hk keyId hb => hg.revoked keyId (hk keyId hb)) trivial hs hbefore ?_
  intro s a s' hs _ hk _ hw
  cases hw with
  | getActiveWithUserFails => exact settles_raise hs.rollback _
  | getActiveWithUser =>
    cases hfound : s.tables.activeWithUser (sha256 presented) with
    | none => exact settles_raise hs _
    | some both =>
      obtain ⟨key, user⟩ := both
      obtain ⟨hmem, hhash, hactive, huser⟩ := of_activeWithUser hfound
      have hauthentic : Authentic claimsOf sha256 before (requests i)
          { userId := user.id, authMethod := .apiKey, apiKeyId := some key.id, tier := user.tier }
          s := by
        refine ⟨fun hsession => (by cases hsession), fun _ => ⟨presented, hparse, key, hmem, hhash,
          rfl, huser.symm, fun hb => ?_⟩⟩
        have hoff := (hk key.id hb).2 key hmem rfl
        rw [hactive] at hoff
        cases hoff
      refine settles_ask (K := Authentic claimsOf sha256 before (requests i) _)
        (fun _ _ hg _ hk => hk.later hg) trivial hs hauthentic ?_
      intro s t s' hs hs' hk hg hw
      refine settles_ask (K := Authentic claimsOf sha256 before (requests i) _)
        (fun _ _ hg _ hk => hk.later hg) trivial hs' (hk.later hg) ?_
      intro s a s' hs hs' hk hg hw
      cases hw with
      | touchLastUsedFails => exact settles_raise hs' _
      | touchLastUsed =>
        refine settles_commit (K := Authentic claimsOf sha256 before (requests i) _)
          (fun _ => rfl) (fun _ _ hg _ hk => hk.later hg) hs' (hk.later hg) ?_
        intro s hs hk hs' hg
        exact hf _ _ hs' (hk.later hg)

/-- The endpoints, for the one that came through the door. -/
theorem settles_run {principal : Principal} (hs : Sound claimsOf sha256 requests s)
    (h : Authentic claimsOf sha256 before (requests i) principal s) :
    Settles (Serves claimsOf i) (others claimsOf sha256 requests i)
      (Leaves claimsOf sha256 requests i) ((requests i).endpoint.run sha256 principal)
      (Answers claimsOf sha256 requests before i) s := by
  have hrefused : ∀ {f : Unit → Eff Response}, principal.authMethod ≠ .session →
      Settles (Serves claimsOf i) (others claimsOf sha256 requests i)
        (Leaves claimsOf sha256 requests i) (Prog.ofExcept (requireSession principal) >>= f)
        (Answers claimsOf sha256 requests before i) s := by
    intro f hmethod
    rw [requireSession, if_neg hmethod]
    exact settles_raise hs _
  cases hendpoint : (requests i).endpoint with
  | serve => exact settles_answer hs h
  | createKey nickname =>
    show Settles _ _ _ (createKey sha256 nickname principal) _ _
    unfold createKey
    by_cases hmethod : principal.authMethod = .session
    · rw [requireSession, if_pos hmethod]
      obtain ⟨hsession, -⟩ := h.1 hmethod
      refine settles_ask (K := fun _ => True) (fun _ _ _ _ h => h) trivial hs trivial ?_
      intro s secret s' _ hs' _ _ hw
      cases hw with
      | generateSecret hdrawn =>
        refine settles_ask (K := fun _ => True) (fun _ _ _ _ h => h)
          ⟨hsession, ⟨nickname, hendpoint⟩, secret, hdrawn, rfl⟩ hs' trivial ?_
        intro s a s' _ hs' _ _ hw
        cases hw with
        | insertKeyFails => exact settles_raise hs' _
        | insertKey id _ _ _ _ _ createdAt hid hhash =>
          generalize hkey : ({ id, userId := principal.userId
                               keyHash := (generateApiKey sha256 secret).keyHash
                               keyPrefix := (generateApiKey sha256 secret).keyPrefix
                               last4 := (generateApiKey sha256 secret).last4
                               nickname, createdAt } : ApiKey) = key at *
          refine settles_commit (K := fun s => .insertKey key ∈ s.pending i) (fun _ => rfl)
            (fun _ _ _ hpending hk => hpending ▸ hk) hs' (by simp) ?_
          intro s hs hk hs' _
          obtain ⟨key', hmem', hkept⟩ := @kept_commit (s.pending i) s.tables key (.inr hk)
          have hhash : key.keyHash = sha256 (generateApiKey sha256 secret).plaintext := by
            rw [← hkey]
            rfl
          have huser : key.userId = principal.userId := by rw [← hkey]
          have hright : Right claimsOf sha256 before (requests i) (s.commit Tables.apply i)
              (.created { toOut key with key := (generateApiKey sha256 secret).plaintext }) :=
            ⟨@parse_generate sha256 secret hdrawn, key', hmem', hkept.id, hkept.keyHash.trans hhash,
              (hkept.userId.trans huser) ▸ hsession⟩
          exact settles_answer hs' hright
    · exact hrefused hmethod
  | listKeys =>
    show Settles _ _ _ (listKeys principal) _ _
    unfold listKeys
    by_cases hmethod : principal.authMethod = .session
    · rw [requireSession, if_pos hmethod]
      obtain ⟨hsession, -⟩ := h.1 hmethod
      refine settles_ask (K := fun _ => True) (fun _ _ _ _ h => h) trivial hs trivial ?_
      intro s a s' hs hs' _ _ hw
      cases hw with
      | listForUserFails => exact settles_raise hs' _
      | listForUser =>
        refine settles_answer hs' ⟨principal.userId, hsession, fun out hout => ?_⟩
        obtain ⟨key, hkey, rfl⟩ := List.mem_map.mp hout
        obtain ⟨hmem, huser⟩ := List.mem_filter.mp (List.mem_mergeSort.mp hkey)
        exact ⟨key, hmem, rfl, of_decide_eq_true huser⟩
    · exact hrefused hmethod
  | revokeKey keyId =>
    show Settles _ _ _ (revokeKey keyId principal) _ _
    unfold revokeKey
    by_cases hmethod : principal.authMethod = .session
    · rw [requireSession, if_pos hmethod]
      obtain ⟨hsession, -⟩ := h.1 hmethod
      refine settles_ask (K := fun _ => True) (fun _ _ _ _ h => h) ⟨hsession, hendpoint⟩ hs
        trivial ?_
      intro s a s' hs hs' _ _ hw
      cases hw with
      | revokeFails => exact settles_raise hs' _
      | revoke =>
        cases hany : s.tables.keys.any fun key => key.id = keyId ∧ key.userId = principal.userId with
        | false => exact settles_raise hs' _
        | true =>
          obtain ⟨key, hkey, hboth⟩ := List.any_eq_true.mp hany
          obtain ⟨hid, huser⟩ := of_decide_eq_true hboth
          refine settles_commit (K := fun s => ∃ key ∈ s.tables.keys, key.id = keyId ∧
            .revoke key.id key.userId ∈ s.pending i) (fun _ => rfl) ?_ hs'
            ⟨key, hkey, hid, by simp [hid, huser]⟩ ?_
          · rintro s s' hg hpending ⟨key, hkey, hid, hrevoke⟩
            obtain ⟨key', hkey', hkept⟩ := hg.kept key hkey
            refine ⟨key', hkey', hkept.id.trans hid, ?_⟩
            rw [hkept.id, hkept.userId, hpending]
            exact hrevoke
          · rintro s hs ⟨key, hkey, rfl, hrevoke⟩ hs' _
            exact settles_answer hs' ⟨key.id, hendpoint, revoked_commit hs.ids hkey hrevoke⟩
    · exact hrefused hmethod

/-- **One request**, whatever the others do. -/
theorem settles_handle (hs : Sound claimsOf sha256 requests s)
    (hbefore : ∀ keyId, before keyId → Revoked keyId s) :
    Settles (Serves claimsOf i) (others claimsOf sha256 requests i)
      (Leaves claimsOf sha256 requests i) (handle sha256 (requests i))
      (Answers claimsOf sha256 requests before i) s := by
  unfold handle getPrincipal
  split
  next => exact settles_raise hs _
  next token htoken => exact settles_principalFromJwt htoken hs fun _ _ => settles_run
  next =>
    split
    next => exact settles_raise hs _
    next raw hraw =>
      split
      next => exact settles_raise hs _
      next presented hparse =>
        exact settles_principalFromApiKey (hraw ▸ hparse) hs hbefore fun _ _ => settles_run

/-! ## Any number of requests -/

omit [DecidableEq ι] in
theorem sound_start : Sound claimsOf sha256 requests ({ tables := {} } : Store ι) where
  minted _ hkey := absurd hkey List.not_mem_nil
  revoked _ hkey := absurd hkey List.not_mem_nil
  writes _ _ hwrite := absurd hwrite List.not_mem_nil
  ids := ⟨fun _ => List.nodup_nil, fun _ _ _ _ hkey => absurd hkey List.not_mem_nil⟩
  hashes := ⟨fun _ => List.nodup_nil, fun _ _ _ _ hkey => absurd hkey List.not_mem_nil⟩

omit [DecidableEq ι] in
/-- What one guarantees the others may rely on. -/
theorem Leaves.others {i j : ι} (hne : i ≠ j) (h : Leaves claimsOf sha256 requests i s s') :
    (others claimsOf sha256 requests j).step s s' :=
  ⟨h.1, h.2 j hne⟩

/-- **From any sound pool** whose members settle: it stays sound, no row is lost, and
the members settle wherever it gets. -/
theorem run_settles {c c' : Pool ι iface Raised Response (Store ι)}
    {Q : ι → Except Raised Response → Store ι → Prop}
    (h : Pool.Reach (Serves claimsOf) (fun _ _ => False) c c')
    (hs : Sound claimsOf sha256 requests c.store)
    (hstart : ∀ i, Settles (Serves claimsOf i) (others claimsOf sha256 requests i)
      (Leaves claimsOf sha256 requests i) (c.prog i) (Q i) c.store) :
    (Sound claimsOf sha256 requests c'.store ∧ Later c.store c'.store) ∧
      ∀ i, Settles (Serves claimsOf i) (others claimsOf sha256 requests i)
        (Leaves claimsOf sha256 requests i) (c'.prog i) (Q i) c'.store := by
  have hothers : ∀ i j s s', i ≠ j → Leaves claimsOf sha256 requests i s s' →
      (others claimsOf sha256 requests j).step s s' := fun i j s s' hne hleaves =>
    hleaves.others hne
  have hbeside : ∀ j s s', False → (others claimsOf sha256 requests j).step s s' :=
    fun _ _ _ hfalse => hfalse.elim
  refine ⟨?_, h.settles hothers hbeside hstart⟩
  refine h.kept (J := fun s => Sound claimsOf sha256 requests s ∧ Later c.store s) hothers hbeside
    hstart ⟨hs, .refl⟩ ?_ (fun _ _ hfalse => hfalse.elim)
  rintro i s s' hleaves ⟨hs, hlater⟩
  obtain ⟨hs', hstep⟩ := hleaves.1 hs
  exact ⟨hs', hlater.trans hstep⟩

theorem serving_settles {c : Pool ι iface Raised Response (Store ι)}
    (h : Pool.Reach (Serves claimsOf) (fun _ _ => False) (serving sha256 requests) c) :
    Sound claimsOf sha256 requests c.store ∧
      ∀ i, Settles (Serves claimsOf i) (others claimsOf sha256 requests i)
        (Leaves claimsOf sha256 requests i) (c.prog i)
        (Answers claimsOf sha256 requests (fun _ => False) i) c.store := by
  obtain ⟨⟨hs, -⟩, hsettles⟩ := run_settles
    (Q := Answers claimsOf sha256 requests fun _ => False) h sound_start fun i =>
      settles_handle sound_start fun _ hfalse => hfalse.elim
  exact ⟨hs, hsettles⟩

/-- What a member has answered. -/
theorem right_of_settles {response : Response} {p : Eff Response}
    (h : Settles (Serves claimsOf i) (others claimsOf sha256 requests i)
      (Leaves claimsOf sha256 requests i) p (Answers claimsOf sha256 requests before i) s)
    (hp : p = .ret response) : Right claimsOf sha256 before (requests i) s response := by
  rw [hp] at h
  exact (h s ((others claimsOf sha256 requests i).refl s)).2 response rfl

/-- **The keys are sound**, in whatever order any requests run and whatever fails: every key
was minted by a session of its owner and revoked by none but such a one, no two have one id or
one digest, and each answer is right. -/
theorem keys_sound {c : Pool ι iface Raised Response (Store ι)}
    (h : Pool.Reach (Serves claimsOf) (fun _ _ => False) (serving sha256 requests) c) :
    Sound claimsOf sha256 requests c.store ∧
      ∀ i response, c.prog i = .ret response →
        Right claimsOf sha256 (fun _ => False) (requests i) c.store response := by
  obtain ⟨hs, hsettles⟩ := serving_settles h
  exact ⟨hs, fun i response hprog => right_of_settles (hsettles i) hprog⟩

/-- **A key that was revoked opens no door again.** Once the revocation has been answered, a
request that had not begun is served by that key never, whatever else goes on. -/
theorem revoked_for_good {c c' : Pool ι iface Raised Response (Store ι)} {i j : ι} {keyId : String}
    {principal : Principal}
    (h : Pool.Reach (Serves claimsOf) (fun _ _ => False) (serving sha256 requests) c)
    (hendpoint : (requests i).endpoint = .revokeKey keyId) (hrevoked : c.prog i = .ret .revoked)
    (hbegins : c.prog j = handle sha256 (requests j))
    (h' : Pool.Reach (Serves claimsOf) (fun _ _ => False) c c')
    (hserved : c'.prog j = .ret (.served principal)) :
    Revoked keyId c'.store ∧ principal.apiKeyId ≠ some keyId := by
  obtain ⟨hs, hsettles⟩ := serving_settles h
  have hrevoked : Revoked keyId c.store := by
    obtain ⟨other, hother, hrevoked⟩ := right_of_settles (hsettles i) hrevoked
    obtain rfl := Endpoint.revokeKey.inj (hendpoint.symm.trans hother)
    exact hrevoked
  -- from here on the member that has not begun is judged by what is revoked by now
  obtain ⟨⟨-, hlater⟩, hsettles'⟩ := run_settles
    (Q := fun k => Answers claimsOf sha256 requests (fun other => k = j ∧ other = keyId) k) h' hs
    (fun k => by
      by_cases hk : k = j
      · subst hk
        rw [hbegins]
        exact settles_handle hs fun other hother => hother.2 ▸ hrevoked
      · exact (hsettles k).mono fun r s' hanswers => ⟨hanswers.1, fun response hok =>
          (hanswers.2 response hok).mono fun other hother => absurd hother.1 hk⟩)
  refine ⟨hlater.revoked keyId hrevoked, fun hkey => ?_⟩
  obtain ⟨hsession, hapiKey⟩ := right_of_settles (hsettles' j) hserved
  cases hmethod : principal.authMethod with
  | session =>
    rw [(hsession hmethod).2] at hkey
    cases hkey
  | apiKey =>
    obtain ⟨_, _, key, _, _, hid, _, hbefore⟩ := hapiKey hmethod
    exact hbefore ⟨rfl, Option.some.inj (hid.symm.trans hkey)⟩

end

/-! ## Two keys, and one of them revoked -/

/-- The secret that is all of one letter. -/
def secretOf (letter : Char) : String := String.ofList (List.replicate keySecretLength letter)

/-- The digests of the two keys, and a mark of their own for any other texts. -/
def digestOf (text : String) : String :=
  if text = keyPrefix ++ secretOf 'a' then
    "b4955287aa31d321e606c0f9c0bf665e086b914d5294c6d80369d0e2b9476b0e"
  else if text = keyPrefix ++ secretOf 'b' then
    "fccfd8ff0264bdd2c7c7f6bc4c1fdf30c0759e68056aaa23596ff4f5de43db93"
  else "sha256:" ++ text

/-- The one token that is good. -/
def oneToken (token : String) : Option Claims :=
  if token = "t" then some { sub := "u", email := "u@example.com", emailVerified := true } else none

/-- The one who shows it. -/
def oneUser : User where
  id := "u"
  email := "u@example.com"
  emailVerified := true
  tier := "free"

/-- Two keys are minted, the first is revoked, and the second is shown. -/
def fourRequests : Fin 4 → Request
  | 0 | 1 => ⟨⟨some "Bearer t", none⟩, .createKey none⟩
  | 2 => ⟨⟨some "Bearer t", none⟩, .revokeKey "k0"⟩
  | 3 => ⟨⟨none, some (keyPrefix ++ secretOf 'b')⟩, .serve⟩

/-- A row of a key that was minted. -/
def mintedRow (id : String) (letter : Char) (createdAt : Seconds) : ApiKey where
  id := id
  userId := "u"
  keyHash := digestOf (keyPrefix ++ secretOf letter)
  keyPrefix := keyPrefix
  last4 := (generateApiKey digestOf (secretOf letter)).last4
  nickname := none
  createdAt := createdAt

/-- Tables, and nothing that is not committed. -/
def settled (keys : List ApiKey) : Store (Fin 4) := { tables := { users := [oneUser], keys } }

theorem bearerToken_oneToken : bearerToken (some "Bearer t") = .ok (some "t") := by decide

theorem drawn_secretOf {letter : Char} (h : letter ∈ base62Alphabet) :
    Drawn (secretOf letter) := by
  refine ⟨by simp [secretOf], fun c hc => ?_⟩
  rw [secretOf, String.toList_ofList] at hc
  rw [List.eq_of_mem_replicate hc]
  exact h

/-- The session comes through the door, for the first time or again. -/
theorem leads_session {i : Fin 4} {keys : List ApiKey} {s t : Store (Fin 4)}
    {r : Except Raised Response} {f : Principal → Eff Response}
    (hs : s = { tables := {} } ∧ keys = [] ∨ s = settled keys)
    (h : Leads (Serves oneToken i) (f ⟨"u", .session, none, "free"⟩) (settled keys) r t) :
    Leads (Serves oneToken i) (principalFromJwt "t" >>= f) s r t := by
  have hpending : s.pending = fun _ => [] := by
    rcases hs with ⟨rfl, -⟩ | rfl <;> rfl
  have hmirrored : s.tables.mirrored "u" (normalizeEmail "u@example.com") true = oneUser := by
    have hemail : normalizeEmail "u@example.com" = "u@example.com" := by decide
    rw [hemail]
    rcases hs with ⟨rfl, -⟩ | rfl <;> rfl
  have happly : ({ tables := s.tables.apply (.upsertUser oneUser) } : Store (Fin 4)) =
      settled keys := by
    rcases hs with ⟨rfl, rfl⟩ | rfl
    · rfl
    · have hsame : keyRows.apply keys (.upsertUser oneUser) = keys :=
        (List.append_nil _).trans List.filterMap_some
      exact congrArg (fun keys => ({ tables := { users := [oneUser], keys } } : Store (Fin 4))) hsame
  refine leads_ask.mpr ⟨.ok _, _, .verifyToken (rfl : oneToken "t" = some _), ?_⟩
  refine leads_ask.mpr ⟨.ok _, _, .upsertUser _ _ _, ?_⟩
  refine leads_ask.mpr ⟨.ok (), _, .commit, ?_⟩
  rw [hmirrored, Sessions.commit_push hpending, happly]
  exact h

/-- It mints a key. -/
theorem leads_createKey {i : Fin 4} {keys : List ApiKey} {id : String} {letter : Char}
    {createdAt : Seconds} (hletter : letter ∈ base62Alphabet)
    (hid : ∀ key ∈ keys, key.id ≠ id)
    (hhash : ∀ key ∈ keys, key.keyHash ≠ digestOf (keyPrefix ++ secretOf letter)) :
    Leads (Serves oneToken i) (createKey digestOf none ⟨"u", .session, none, "free"⟩)
      (settled keys)
      (.ok (.created { toOut (mintedRow id letter createdAt) with
        key := keyPrefix ++ secretOf letter }))
      (settled (keys ++ [mintedRow id letter createdAt])) := by
  refine leads_ask.mpr ⟨secretOf letter, _, .generateSecret (drawn_secretOf hletter), ?_⟩
  refine leads_ask.mpr ⟨.ok _, _, .insertKey id _ _ _ _ _ createdAt ⟨hid, fun _ _ h => ?_⟩
    ⟨hhash, fun _ _ h => ?_⟩, ?_⟩
  · exact absurd h List.not_mem_nil
  · exact absurd h List.not_mem_nil
  refine leads_ask.mpr ⟨.ok (), _, .commit, ?_⟩
  refine leads_ret.mpr ⟨rfl, ?_⟩
  have hsame : keyRows.apply keys (.insertKey (mintedRow id letter createdAt)) =
      keys ++ [mintedRow id letter createdAt] :=
    congrArg (· ++ [mintedRow id letter createdAt]) List.filterMap_some
  have happly : (settled keys).tables.apply (.insertKey (mintedRow id letter createdAt)) =
      { users := [oneUser], keys := keys ++ [mintedRow id letter createdAt] } :=
    congrArg (fun keys => ({ users := [oneUser], keys } : Tables)) hsame
  have hpending : (settled keys).pending = fun _ => [] := rfl
  exact ((Sessions.commit_push hpending).trans
    (congrArg (fun t => ({ tables := t } : Store (Fin 4))) happly)).symm

/-- The rows when both are minted, and when the first is revoked. -/
def firstRow : ApiKey := mintedRow "k0" 'a' 0

def secondRow : ApiKey := mintedRow "k1" 'b' 1

def revokedRow : ApiKey := { firstRow with isActive := false }

theorem leads_revokeKey {i : Fin 4} :
    Leads (Serves oneToken i) (revokeKey "k0" ⟨"u", .session, none, "free"⟩)
      (settled [firstRow, secondRow]) (.ok .revoked) (settled [revokedRow, secondRow]) := by
  refine leads_ask.mpr ⟨.ok _, _, .revoke "k0" "u", ?_⟩
  refine leads_ask.mpr ⟨.ok (), _, .commit, ?_⟩
  refine leads_ret.mpr ⟨rfl, ?_⟩
  have hpending : (settled [firstRow, secondRow]).pending = fun _ => [] := rfl
  rw [Sessions.commit_push hpending]
  rfl

theorem parse_second : parseApiKey (some (keyPrefix ++ secretOf 'b')) =
    some (keyPrefix ++ secretOf 'b') :=
  @parse_generate digestOf (secretOf 'b') (drawn_secretOf (by decide))

theorem activeWithUser_second :
    (settled [revokedRow, secondRow]).tables.activeWithUser (digestOf (keyPrefix ++ secretOf 'b')) =
      some (secondRow, oneUser) := by
  have hfirst : ¬ (revokedRow.keyHash = digestOf (keyPrefix ++ secretOf 'b') ∧
      revokedRow.isActive = true) := fun h => by cases h.2
  have hsecond : secondRow.keyHash = digestOf (keyPrefix ++ secretOf 'b') ∧
      secondRow.isActive = true := ⟨rfl, rfl⟩
  have hfind : (settled [revokedRow, secondRow]).tables.keys.find? (fun key =>
      key.keyHash = digestOf (keyPrefix ++ secretOf 'b') ∧ key.isActive = true) =
        some secondRow :=
    (List.find?_cons_of_neg (by rw [decide_eq_true_iff]; exact hfirst)).trans
      (List.find?_cons_of_pos (by rw [decide_eq_true_iff]; exact hsecond))
  rw [Tables.activeWithUser, hfind]
  rfl

/-- The second key still opens the door. -/
theorem leads_second {i : Fin 4} :
    Leads (Serves oneToken i) (handle digestOf (fourRequests 3)) (settled [revokedRow, secondRow])
      (.ok (.served ⟨"u", .apiKey, some "k1", "free"⟩))
      (((settled [revokedRow, secondRow]).push i (.touchLastUsed "k1" 2)).commit Tables.apply i) := by
  have hhandle : handle digestOf (fourRequests 3) =
      (principalFromApiKey digestOf (keyPrefix ++ secretOf 'b') >>= fun principal =>
        .ret (.served principal)) := by
    show (getPrincipal digestOf ⟨none, some _⟩ >>= _) = _
    rw [getPrincipal, show bearerToken none = .ok none from rfl]
    dsimp only
    rw [parse_second]
    rfl
  rw [hhandle]
  refine leads_ask.mpr ⟨.ok _, _, .getActiveWithUser _, ?_⟩
  rw [activeWithUser_second]
  refine leads_ask.mpr ⟨(2 : Seconds), _, .now 2, ?_⟩
  refine leads_ask.mpr ⟨.ok (), _, .touchLastUsed "k1" 2, ?_⟩
  refine leads_ask.mpr ⟨.ok (), _, .commit, ?_⟩
  exact leads_ret.mpr ⟨rfl, rfl⟩

/-- One of them runs to its end. -/
theorem reach_leads {c : Pool (Fin 4) iface Raised Response (Store (Fin 4))} {i : Fin 4}
    {r : Except Raised Response} {t : Store (Fin 4)}
    (h : Pool.Reach (Serves oneToken) (fun _ _ => False) (serving digestOf fourRequests) c)
    (hl : Leads (Serves oneToken i) (c.prog i) c.store r t) :
    Pool.Reach (Serves oneToken) (fun _ _ => False) (serving digestOf fourRequests)
      ⟨t, Function.update c.prog i (.ofExcept r)⟩ := by
  obtain ⟨_, hruns, haccepts⟩ := hl
  exact h.runs hruns haccepts

/-- Those before the last show the session. -/
theorem handle_session {i : Fin 4} (hi : i ≠ 3) :
    handle digestOf (fourRequests i) =
      principalFromJwt "t" >>= fun principal => (fourRequests i).endpoint.run digestOf principal := by
  have hshown : (fourRequests i).shown = ⟨some "Bearer t", none⟩ := by
    revert i
    decide
  rw [handle, hshown, getPrincipal, bearerToken_oneToken]

/-- What the first is answered. -/
def firstCreated : ApiKeyCreated :=
  { toOut firstRow with key := keyPrefix ++ secretOf 'a' }

/-- The requests are answered one after the other, as far as the revocation. -/
theorem reach_revocation :
    ∃ c, Pool.Reach (Serves oneToken) (fun _ _ => False) (serving digestOf fourRequests) c ∧
      c.store = settled [revokedRow, secondRow] ∧ c.prog 0 = .ret (.created firstCreated) ∧
      c.prog 2 = .ret .revoked ∧ c.prog 3 = handle digestOf (fourRequests 3) := by
  have hfirst : Leads (Serves oneToken 0) (handle digestOf (fourRequests 0)) { tables := {} }
      (.ok (.created firstCreated)) (settled [firstRow]) := by
    rw [handle_session (by decide)]
    exact leads_session (.inl ⟨rfl, rfl⟩) (leads_createKey (by decide)
      (fun _ h => absurd h List.not_mem_nil) (fun _ h => absurd h List.not_mem_nil))
  have hsecond : Leads (Serves oneToken 1) (handle digestOf (fourRequests 1)) (settled [firstRow])
      (.ok (.created { toOut secondRow with key := keyPrefix ++ secretOf 'b' }))
      (settled [firstRow, secondRow]) := by
    rw [handle_session (by decide)]
    refine leads_session (.inr rfl) (leads_createKey (by decide) ?_ ?_)
    · intro key hkey
      rw [List.mem_singleton.mp hkey]
      decide
    · intro key hkey
      rw [List.mem_singleton.mp hkey]
      decide
  have hthird : Leads (Serves oneToken 2) (handle digestOf (fourRequests 2))
      (settled [firstRow, secondRow]) (.ok .revoked) (settled [revokedRow, secondRow]) := by
    rw [handle_session (by decide)]
    exact leads_session (.inr rfl) leads_revokeKey
  exact ⟨_, reach_leads (reach_leads (reach_leads .start hfirst) hsecond) hthird, rfl, rfl, rfl, rfl⟩

theorem keys_sound_firstCreated :
    ∃ c : Pool (Fin 4) iface Raised Response (Store (Fin 4)),
      c.prog 0 = .ret (.created firstCreated) ∧
      Right oneToken digestOf (fun _ => False) (fourRequests 0) c.store (.created firstCreated) := by
  obtain ⟨c, hreach, -, hcreated, -⟩ := reach_revocation
  exact ⟨c, hcreated, (keys_sound hreach).2 0 _ hcreated⟩

theorem revoked_for_good_secondRow :
    ∃ c : Pool (Fin 4) iface Raised Response (Store (Fin 4)),
      c.prog 3 = .ret (.served ⟨"u", .apiKey, some "k1", "free"⟩) ∧ Revoked "k0" c.store ∧
      some "k1" ≠ some "k0" := by
  obtain ⟨c, hreach, hstore, -, hrevoked, hbegins⟩ := reach_revocation
  have hlast : Leads (Serves oneToken 3) (c.prog 3) c.store
      (.ok (.served ⟨"u", .apiKey, some "k1", "free"⟩))
      (((settled [revokedRow, secondRow]).push 3 (.touchLastUsed "k1" 2)).commit Tables.apply 3) := by
    rw [hstore, hbegins]
    exact leads_second
  obtain ⟨_, hruns, haccepts⟩ := hlast
  have hstart : Pool.Reach (Serves oneToken) (fun _ _ => False) c c := .start
  have hreach' := hstart.runs hruns haccepts
  have hserved := Function.update_self (3 : Fin 4)
    (Prog.ofExcept (.ok (.served ⟨"u", .apiKey, some "k1", "free"⟩)) : Eff Response) c.prog
  exact ⟨_, hserved, revoked_for_good hreach rfl hrevoked hbegins hreach' hserved⟩

end ApiKeys

end LlmGateway
