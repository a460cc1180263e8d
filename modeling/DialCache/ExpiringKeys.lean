import Mathlib.Order.WithBot
import Mathlib.Data.Nat.Basic

/-!
# Keys with an expiry instant

One key of a store with millisecond expiry. A key written with a lifetime `p` at time
`t` is present before `t + p` and absent from `t + p` on. A persistent key expires at
`⊤`, so "does not expire earlier" is the order of expiry instants.
-/

namespace DialCache.ExpiringKeys

variable {Γ : Type*}

structure Entry (Γ : Type*) where
  content : Γ
  expiresAt : WithTop ℕ
deriving DecidableEq

/-- A key of the store: nothing was written, or the last write. -/
abbrev Slot (Γ : Type*) := Option (Entry Γ)

def Entry.aliveAt (e : Entry Γ) (now : ℕ) : Prop := WithTop.some now < e.expiresAt

instance (e : Entry Γ) (now : ℕ) : Decidable (e.aliveAt now) :=
  inferInstanceAs (Decidable (WithTop.some now < e.expiresAt))

/-- What a command at time `now` finds under the key. -/
def lookup (slot : Slot Γ) (now : ℕ) : Option (Entry Γ) :=
  slot.filter (fun e => e.aliveAt now)

/-- A write that replaces content and lifetime. -/
def setPx (content : Γ) (now lifetime : ℕ) : Slot Γ :=
  some ⟨content, WithTop.some (now + lifetime)⟩

/-- A write without a lifetime. -/
def setPersistent (content : Γ) : Slot Γ := some ⟨content, ⊤⟩

/-- The remaining lifetime in milliseconds, `-1` for a persistent key and `-2` for an
absent one. -/
def pttl (slot : Slot Γ) (now : ℕ) : ℤ :=
  match lookup slot now with
  | none => -2
  | some ⟨_, none⟩ => -1
  | some ⟨_, some expiry⟩ => expiry - now

variable {now : ℕ}

theorem lookup_some {e : Entry Γ} (h : e.aliveAt now) : lookup (some e) now = some e := by
  simp [lookup, h]

theorem lookup_eq_some_iff {slot : Slot Γ} {e : Entry Γ} :
    lookup slot now = some e ↔ slot = some e ∧ e.aliveAt now := by
  simp [lookup, Option.filter_eq_some_iff]

variable {content : Γ}

@[simp] theorem aliveAt_coe {expiry : ℕ} :
    (⟨content, WithTop.some expiry⟩ : Entry Γ).aliveAt now ↔ now < expiry := by
  simp [Entry.aliveAt]

@[simp] theorem aliveAt_top : (⟨content, ⊤⟩ : Entry Γ).aliveAt now := by
  simp [Entry.aliveAt]

theorem pttl_persistent : pttl (some ⟨content, ⊤⟩) now = -1 := by
  rw [pttl, lookup_some aliveAt_top]

theorem pttl_coe {expiry : ℕ} (h : now < expiry) :
    pttl (some ⟨content, WithTop.some expiry⟩) now = expiry - now := by
  rw [pttl, lookup_some (aliveAt_coe.mpr h)]

end DialCache.ExpiringKeys
