import LlmGateway.Auth.ApiKeys

/-!
# The rows of the keys

What the statements of any requests leave of a row: it stays whose and what it
is, and what was revoked stays revoked. Ids and digests are unique, and a
revocation that is committed is one.
-/

namespace LlmGateway

namespace ApiKeys

open Effects

/-- Whose session a request shows. -/
def Request.OfSession (claimsOf : String → Option Claims) (request : Request) (userId : String) :
    Prop :=
  ∃ token claims, bearerToken request.shown.authorization = .ok (some token) ∧
    claimsOf token = some claims ∧ claims.sub = userId

/-- A row that a request may have minted. -/
def Request.Mints (claimsOf : String → Option Claims) (sha256 : String → String)
    (request : Request) (key : ApiKey) : Prop :=
  request.OfSession claimsOf key.userId ∧ (∃ nickname, request.endpoint = .createKey nickname) ∧
    ∃ secret, Drawn secret ∧ key.keyHash = sha256 (keyPrefix ++ secret)

/-- A row that it may have revoked. -/
def Request.Revokes (claimsOf : String → Option Claims) (request : Request)
    (keyId userId : String) : Prop :=
  request.OfSession claimsOf userId ∧ request.endpoint = .revokeKey keyId

/-- What it may write. -/
def Request.Writes (claimsOf : String → Option Claims) (sha256 : String → String)
    (request : Request) : Write → Prop
  | .insertKey key => request.Mints claimsOf sha256 key ∧ key.isActive = true
  | .revoke keyId userId => request.Revokes claimsOf keyId userId
  | _ => True

/-- A column that no two rows share. -/
def Unique {ι : Type} (column : ApiKey → String) (s : Store ι) : Prop :=
  keyRows.Unique column s.tables.keys s.pending

/-- **The keys are sound**: each was minted by a session of its owner, none was revoked by anybody
else, and no two have one id or one digest. -/
structure Sound {ι : Type} (claimsOf : String → Option Claims) (sha256 : String → String)
    (requests : ι → Request) (s : Store ι) : Prop where
  minted : ∀ key ∈ s.tables.keys, ∃ i, (requests i).Mints claimsOf sha256 key
  revoked : ∀ key ∈ s.tables.keys, key.isActive = false →
    ∃ i, (requests i).Revokes claimsOf key.id key.userId
  writes : ∀ i, ∀ write ∈ s.pending i, (requests i).Writes claimsOf sha256 write
  ids : Unique ApiKey.id s
  hashes : Unique ApiKey.keyHash s

/-- A key that is there and works no more. -/
def Revoked {ι : Type} (keyId : String) (s : Store ι) : Prop :=
  (∃ key ∈ s.tables.keys, key.id = keyId) ∧
    ∀ key ∈ s.tables.keys, key.id = keyId → key.isActive = false

/-- What becomes of a row: it stays whose and what it is, and what was revoked stays revoked. -/
structure Kept (key key' : ApiKey) : Prop where
  id : key'.id = key.id
  userId : key'.userId = key.userId
  keyHash : key'.keyHash = key.keyHash
  inactive : key.isActive = false → key'.isActive = false

/-- No row is lost, and no key works again. -/
structure Later {ι : Type} (s s' : Store ι) : Prop where
  kept : ∀ key ∈ s.tables.keys, ∃ key' ∈ s'.tables.keys, Kept key key'
  revoked : ∀ keyId, Revoked keyId s → Revoked keyId s'

section

variable {ι : Type} {claimsOf : String → Option Claims} {sha256 : String → String}
  {requests : ι → Request} {s s' s'' : Store ι}

theorem Kept.refl (key : ApiKey) : Kept key key := ⟨rfl, rfl, rfl, fun h => h⟩

theorem Kept.trans {key key' key'' : ApiKey} (h : Kept key key') (h' : Kept key' key'') :
    Kept key key'' :=
  ⟨h'.id.trans h.id, h'.userId.trans h.userId, h'.keyHash.trans h.keyHash,
    fun hoff => h'.inactive (h.inactive hoff)⟩

/-- Only the committed tables matter. -/
theorem later_of_tables (h : s'.tables = s.tables) : Later s s' := by
  refine ⟨fun key hkey => ⟨key, h ▸ hkey, .refl key⟩, ?_⟩
  rintro keyId ⟨⟨key, hkey, hid⟩, hoff⟩
  exact ⟨⟨key, h ▸ hkey, hid⟩, fun other hother => hoff other (h ▸ hother)⟩

theorem Later.refl : Later s s := later_of_tables rfl

theorem Later.trans (h : Later s s') (h' : Later s' s'') : Later s s'' := by
  refine ⟨?_, fun keyId hk => h'.revoked keyId (h.revoked keyId hk)⟩
  intro key hkey
  obtain ⟨key', hkey', hkept⟩ := h.kept key hkey
  obtain ⟨key'', hkey'', hkept'⟩ := h'.kept key' hkey'
  exact ⟨key'', hkey'', hkept.trans hkept'⟩

/-! ## One row -/

theorem kept_onKey (write : Write) (key : ApiKey) : Kept key (write.onKey key) := by
  cases write with
  | touchLastUsed keyId now =>
    unfold Write.onKey
    dsimp only
    split <;> exact ⟨rfl, rfl, rfl, fun h => h⟩
  | revoke keyId userId =>
    unfold Write.onKey
    dsimp only
    split
    · exact ⟨rfl, rfl, rfl, fun _ => rfl⟩
    · exact .refl key
  | _ => exact .refl key

/-- A row goes inactive by its revocation, and by nothing else. -/
theorem onKey_inactive {write : Write} {key : ApiKey} :
    (write.onKey key).isActive = false ↔
      key.isActive = false ∨ write = .revoke key.id key.userId := by
  cases write with
  | touchLastUsed keyId now =>
    unfold Write.onKey
    dsimp only
    split <;> simp
  | revoke keyId userId =>
    unfold Write.onKey
    dsimp only
    split
    next hboth =>
      obtain ⟨rfl, rfl⟩ := hboth
      simp
    next hother =>
      constructor
      · exact .inl
      · rintro (hoff | hsame)
        · exact hoff
        · obtain ⟨hid, huser⟩ := Write.revoke.inj hsame
          exact absurd ⟨hid.symm, huser.symm⟩ hother
  | _ => simp [Write.onKey]

theorem kept_updates {writes : List Write} {key key' : ApiKey}
    (h : keyRows.updates writes key = some key') : Kept key key' := by
  refine Rows.rel_updates Kept.refl (fun _ _ _ => Kept.trans) ?_ h
  intro write key key' hupdate
  obtain rfl := Option.some.inj hupdate
  exact kept_onKey write key

theorem updates_inactive {writes : List Write} {key key' : ApiKey}
    (h : keyRows.updates writes key = some key') :
    key'.isActive = false ↔ key.isActive = false ∨ .revoke key.id key.userId ∈ writes := by
  induction writes generalizing key with
  | nil =>
    obtain rfl := Option.some.inj h
    simp
  | cons write writes ih =>
    obtain ⟨next, hupdate, hlater⟩ := Rows.updates_cons.mp h
    obtain rfl := Option.some.inj hupdate
    have hone := kept_onKey write key
    rw [ih hlater, onKey_inactive, hone.id, hone.userId, List.mem_cons, or_assoc]
    exact or_congr_right (or_congr_left eq_comm)

theorem fixed_id : keyRows.Fixed ApiKey.id := by
  intro write key key' hupdate
  obtain rfl := Option.some.inj hupdate
  exact (kept_onKey write key).id

theorem fixed_keyHash : keyRows.Fixed ApiKey.keyHash := by
  intro write key key' hupdate
  obtain rfl := Option.some.inj hupdate
  exact (kept_onKey write key).keyHash

theorem insert_eq_some {write : Write} {key : ApiKey} :
    keyRows.insert write = some key ↔ write = .insertKey key := by
  constructor
  · intro h
    cases write with
    | insertKey other =>
      obtain rfl := Option.some.inj h
      rfl
    | _ => cases h
  · rintro rfl
    rfl

/-! ## The rows of a commit -/

theorem keys_foldl (writes : List Write) (t : Tables) :
    (writes.foldl Tables.apply t).keys = writes.foldl keyRows.apply t.keys :=
  Rows.rows_foldl Tables.keys (fun _ _ => rfl) writes t

/-- **Where the rows of a commit come from.** -/
theorem origin_commit {writes : List Write} {t : Tables} {key' : ApiKey}
    (h : key' ∈ (writes.foldl Tables.apply t).keys) :
    (∃ key ∈ t.keys, Kept key key' ∧
      (key'.isActive = false ↔ key.isActive = false ∨ .revoke key.id key.userId ∈ writes)) ∨
    ∃ key, .insertKey key ∈ writes ∧ Kept key key' ∧
      (key'.isActive = false → key.isActive = false ∨ .revoke key.id key.userId ∈ writes) := by
  rw [keys_foldl] at h
  rcases Rows.mem_foldl_apply.mp h with ⟨key, hkey, hall⟩ |
    ⟨before, write, after, key, rfl, hinsert, hlater⟩
  · exact .inl ⟨key, hkey, kept_updates hall, updates_inactive hall⟩
  · have hwrite := insert_eq_some.mp hinsert
    refine .inr ⟨key, by simp [hwrite], kept_updates hlater, fun hoff => ?_⟩
    rcases (updates_inactive hlater).mp hoff with hbefore | hrevoke
    · exact .inl hbefore
    · exact .inr (List.mem_append_right _ (List.mem_cons_of_mem _ hrevoke))

/-- No row is lost, nor one that is inserted. -/
theorem kept_commit {writes : List Write} {t : Tables} {key : ApiKey}
    (h : key ∈ t.keys ∨ .insertKey key ∈ writes) :
    ∃ key' ∈ (writes.foldl Tables.apply t).keys, Kept key key' := by
  have hall : ∀ ws, ∃ key', keyRows.updates ws key = some key' := fun ws =>
    Rows.isSome_updates (fun _ _ => rfl) ws key
  rw [keys_foldl]
  rcases h with hkey | hinsert
  · obtain ⟨key', hlater⟩ := hall writes
    exact ⟨key', Rows.mem_foldl_apply.mpr (.inl ⟨key, hkey, hlater⟩), kept_updates hlater⟩
  · obtain ⟨before, after, rfl⟩ := List.append_of_mem hinsert
    obtain ⟨key', hlater⟩ := hall after
    exact ⟨key', Rows.mem_foldl_apply.mpr (.inr ⟨before, _, after, key, rfl, rfl, hlater⟩),
      kept_updates hlater⟩

end

section

variable {ι : Type} [DecidableEq ι] {claimsOf : String → Option Claims} {sha256 : String → String}
  {requests : ι → Request} {s s' : Store ι} {i : ι}

theorem Sound.rollback (h : Sound claimsOf sha256 requests s) :
    Sound claimsOf sha256 requests (s.rollback i) where
  minted := h.minted
  revoked := h.revoked
  writes j write hwrite := h.writes j write (Sessions.mem_pending_rollback hwrite)
  ids := h.ids.rollback
  hashes := h.hashes.rollback

theorem Sound.push (h : Sound claimsOf sha256 requests s) {write : Write}
    (hwrites : (requests i).Writes claimsOf sha256 write)
    (hfree : ∀ key, write = .insertKey key →
      Free s ApiKey.id key.id ∧ Free s ApiKey.keyHash key.keyHash) :
    Sound claimsOf sha256 requests (s.push i write) where
  minted := h.minted
  revoked := h.revoked
  writes j other hother := by
    rcases Sessions.mem_pending_push hother with hold | ⟨rfl, rfl⟩
    · exact h.writes j other hold
    · exact hwrites
  ids := h.ids.push fun key hinsert => (hfree key (insert_eq_some.mp hinsert)).1
  hashes := h.hashes.push fun key hinsert => (hfree key (insert_eq_some.mp hinsert)).2

theorem Sound.commit (h : Sound claimsOf sha256 requests s) :
    Sound claimsOf sha256 requests (s.commit Tables.apply i) where
  minted key' hkey' := by
    rcases origin_commit hkey' with ⟨key, hkey, hkept, -⟩ | ⟨key, hkey, hkept, -⟩
    · obtain ⟨j, hsession, hendpoint, secret, hdrawn, hhash⟩ := h.minted key hkey
      exact ⟨j, hkept.userId ▸ hsession, hendpoint, secret, hdrawn, hkept.keyHash.trans hhash⟩
    · obtain ⟨⟨hsession, hendpoint, secret, hdrawn, hhash⟩, -⟩ := h.writes i _ hkey
      exact ⟨i, hkept.userId ▸ hsession, hendpoint, secret, hdrawn, hkept.keyHash.trans hhash⟩
  revoked key' hkey' hoff := by
    rcases origin_commit hkey' with ⟨key, hkey, hkept, hwhen⟩ | ⟨key, hkey, hkept, hwhen⟩
    · rw [hkept.id, hkept.userId]
      rcases hwhen.mp hoff with hbefore | hrevoke
      · exact h.revoked key hkey hbefore
      · exact ⟨i, h.writes i _ hrevoke⟩
    · rw [hkept.id, hkept.userId]
      obtain ⟨-, hactive⟩ := h.writes i _ hkey
      rcases hwhen hoff with hbefore | hrevoke
      · rw [hactive] at hbefore
        cases hbefore
      · exact ⟨i, h.writes i _ hrevoke⟩
  writes j write hwrite := h.writes j write (Sessions.mem_pending_commit hwrite)
  ids := Rows.Unique.commit fixed_id (fun _ _ => rfl) h.ids
  hashes := Rows.Unique.commit fixed_keyHash (fun _ _ => rfl) h.hashes

omit [DecidableEq ι] in
/-- One id, one row, also among those that a request inserts. -/
theorem Unique.eq_of_id (h : Unique ApiKey.id s) {key other : ApiKey} (hkey : key ∈ s.tables.keys)
    (hother : other ∈ s.tables.keys ∨ .insertKey other ∈ s.pending i) (hid : other.id = key.id) :
    other = key := by
  have hmem : other ∈ s.tables.keys ++ keyRows.inserts (s.pending i) := by
    rw [List.mem_append, Rows.mem_inserts]
    exact hother.imp_right fun hinsert => ⟨_, hinsert, rfl⟩
  exact Rows.Unique.eq_of_column h hkey hmem hid

theorem Later.commit (h : Unique ApiKey.id s) : Later s (s.commit Tables.apply i) := by
  refine ⟨fun key hkey => kept_commit (.inl hkey), ?_⟩
  rintro keyId ⟨⟨key, hkey, rfl⟩, hoff⟩
  constructor
  · obtain ⟨key', hkey', hkept⟩ := @kept_commit (s.pending i) _ _ (.inl hkey)
    exact ⟨key', hkey', hkept.id⟩
  · intro key' hkey' hid
    have hinactive : ∀ old, old ∈ s.tables.keys ∨ .insertKey old ∈ s.pending i → Kept old key' →
        key'.isActive = false := by
      intro old hold hkept
      have hsame := h.eq_of_id hkey hold (hkept.id.symm.trans hid)
      rw [hsame] at hkept
      exact hkept.inactive (hoff key hkey rfl)
    rcases origin_commit hkey' with ⟨old, hold, hkept, -⟩ | ⟨old, hold, hkept, -⟩
    · exact hinactive old (.inl hold) hkept
    · exact hinactive old (.inr hold) hkept

/-- **A revocation that is committed** is one. -/
theorem revoked_commit (h : Unique ApiKey.id s) {key : ApiKey} (hkey : key ∈ s.tables.keys)
    (hrevoke : .revoke key.id key.userId ∈ s.pending i) :
    Revoked key.id (s.commit Tables.apply i) := by
  constructor
  · obtain ⟨key', hkey', hkept⟩ := @kept_commit (s.pending i) _ _ (.inl hkey)
    exact ⟨key', hkey', hkept.id⟩
  · intro key' hkey' hid
    rcases origin_commit hkey' with ⟨old, hold, hkept, hwhen⟩ | ⟨old, hold, hkept, -⟩
    · have hsame := h.eq_of_id (i := i) hkey (.inl hold) (hkept.id.symm.trans hid)
      rw [hsame] at hwhen
      exact hwhen.mpr (.inr hrevoke)
    · have hsame := h.eq_of_id hkey (.inr hold) (hkept.id.symm.trans hid)
      have hnodup := h.once i
      rw [List.map_append, List.nodup_append'] at hnodup
      have hinsert : key ∈ keyRows.inserts (s.pending i) :=
        Rows.mem_inserts.mpr ⟨_, hsame ▸ hold, rfl⟩
      exact absurd (List.mem_map_of_mem hinsert) (hnodup.2.2 (List.mem_map_of_mem hkey))

end

end ApiKeys

end LlmGateway
