import LlmGateway.Effects.Pool
import Mathlib.Data.Rat.Defs

/-!
# Keys that expire

A store of keys, each with a value, the instant it expires and the member of
the pool that wrote it. A key that has run out goes at some later moment, as a
step beside the members.
-/

namespace Effects

/-- What is stored under a key. -/
structure Entry (ι ν : Type) where
  value : ν
  /-- When it expires. -/
  deadline : ℚ
  /-- Who wrote it, if a member of the pool did. -/
  author : Option ι
  deriving DecidableEq

/-- The keys, and the time. -/
structure Keyspace (ι κ ν : Type) where
  clock : ℚ
  entries : κ → Option (Entry ι ν) := fun _ => none

namespace Keyspace

variable {ι κ ν : Type} [DecidableEq κ]

/-- `SET` with a time to live. -/
def set (s : Keyspace ι κ ν) (i : ι) (k : κ) (v : ν) (ttl : ℚ) : Keyspace ι κ ν :=
  { s with entries := Function.update s.entries k (some ⟨v, s.clock + ttl, some i⟩) }

/-- `DEL`. -/
def del (s : Keyspace ι κ ν) (k : κ) : Keyspace ι κ ν :=
  { s with entries := Function.update s.entries k none }

/-- What a `GET` reads. -/
def read (s : Keyspace ι κ ν) (k : κ) : Option ν := (s.entries k).map (·.value)

section

variable (s : Keyspace ι κ ν) (i : ι) {k k' : κ} (v : ν) (ttl : ℚ)

@[simp] theorem clock_set : (s.set i k v ttl).clock = s.clock := rfl

@[simp] theorem entries_set_self : (s.set i k v ttl).entries k = some ⟨v, s.clock + ttl, some i⟩ :=
  Function.update_self _ _ _

@[simp] theorem entries_set_of_ne (h : k' ≠ k) : (s.set i k v ttl).entries k' = s.entries k' :=
  Function.update_of_ne h _ _

@[simp] theorem entries_del_self : (s.del k).entries k = none := Function.update_self _ _ _

@[simp] theorem entries_del_of_ne (h : k' ≠ k) : (s.del k).entries k' = s.entries k' :=
  Function.update_of_ne h _ _

end

/-- **What goes on beside the members.** Time passes, and a key whose time has come goes. -/
inductive Passes : Keyspace ι κ ν → Keyspace ι κ ν → Prop
  | tick {s : Keyspace ι κ ν} {t : ℚ} (h : s.clock ≤ t) : Passes s { s with clock := t }
  | expires {s : Keyspace ι κ ν} {k : κ} {e : Entry ι ν} (he : s.entries k = some e)
      (ht : e.deadline ≤ s.clock) : Passes s (s.del k)

/-- What is written under a key is an entry of `P`. -/
def Holds (P : κ → Entry ι ν → Prop) (s : Keyspace ι κ ν) : Prop :=
  ∀ k e, s.entries k = some e → P k e

variable {P : κ → Entry ι ν → Prop} {s s' : Keyspace ι κ ν} {k : κ}

theorem Holds.set (h : s.Holds P) {i : ι} {v : ν} {ttl : ℚ}
    (hv : P k ⟨v, s.clock + ttl, some i⟩) : (s.set i k v ttl).Holds P := by
  intro k' e he
  by_cases hk : k' = k
  · subst hk
    rw [entries_set_self] at he
    obtain rfl := Option.some.inj he
    exact hv
  · rw [entries_set_of_ne s i v ttl hk] at he
    exact h k' e he

theorem Holds.del (h : s.Holds P) : (s.del k).Holds P := by
  intro k' e he
  by_cases hk : k' = k
  · subst hk
    rw [entries_del_self] at he
    cases he
  · rw [entries_del_of_ne s hk] at he
    exact h k' e he

theorem Holds.passes (h : s.Holds P) (hp : Passes s s') : s'.Holds P := by
  cases hp with
  | tick _ => exact h
  | expires _ _ => exact h.del

end Keyspace

end Effects
