/-
**A directory of services.**

Servers announce under which address a service can be reached, and withdraw what they have
announced.  A service may be announced at several addresses.

* `Directory.announce`, `Directory.withdraw` — the directory, in the order of the announcements;
* `Directory.addresses` — the addresses of a service;
* `Directory.newest`, `Directory.oldest` — the two ends of that list;
* `Directory.oldest_eq_newest` — **both ends agree while a service has one address**.
-/
import Mathlib.Data.List.Basic

set_option relaxedAutoImplicit false
set_option autoImplicit false

namespace Directory

variable {κ α : Type*} [DecidableEq κ]

/-- The service `k` is announced at the address `a`. -/
def announce (d : List (κ × α)) (k : κ) (a : α) : List (κ × α) := d ++ [(k, a)]

/-- The service `k` can no longer be reached at the address `a`. -/
def withdraw [DecidableEq α] (d : List (κ × α)) (k : κ) (a : α) : List (κ × α) :=
  d.filter fun x => x ≠ (k, a)

/-- The addresses of the service `k`, the oldest announcement first. -/
def addresses (d : List (κ × α)) (k : κ) : List α := (d.filter fun x => x.1 = k).map (·.2)

def newest (d : List (κ × α)) (k : κ) : Option α := (addresses d k).getLast?

def oldest (d : List (κ × α)) (k : κ) : Option α := (addresses d k).head?

@[simp] theorem addresses_announce_self (d : List (κ × α)) (k : κ) (a : α) :
    addresses (announce d k a) k = addresses d k ++ [a] := by
  simp [addresses, announce]

theorem addresses_announce_of_ne (d : List (κ × α)) {k k' : κ} (h : k' ≠ k) (a : α) :
    addresses (announce d k' a) k = addresses d k := by
  simp [addresses, announce, h]

theorem addresses_withdraw_self [DecidableEq α] (d : List (κ × α)) (k : κ) (a : α) :
    addresses (withdraw d k a) k = (addresses d k).filter fun b => b ≠ a := by
  induction d with
  | nil => rfl
  | cons x d ih =>
      obtain ⟨k', b⟩ := x
      simp only [addresses, withdraw] at ih ⊢
      by_cases hk : k' = k
      · subst hk
        by_cases hb : b = a
        · subst hb
          simpa using ih
        · simpa [hb] using ih
      · simpa [hk] using ih

theorem addresses_withdraw_of_ne [DecidableEq α] (d : List (κ × α)) {k k' : κ} (h : k' ≠ k)
    (a : α) :
    addresses (withdraw d k' a) k = addresses d k := by
  simp only [addresses, withdraw, List.filter_filter]
  congr 1
  refine List.filter_congr fun x _ => ?_
  by_cases hx : x.1 = k
  · have hne : x ≠ (k', a) := by
      rintro rfl
      exact h hx
    simp [hx, hne]
  · simp [hx]

/-- Both ends agree while a service has one address. -/
theorem oldest_eq_newest {d : List (κ × α)} {k : κ} {a : α} (h : ∀ b ∈ addresses d k, b = a) :
    oldest d k = newest d k := by
  have hrep : addresses d k = List.replicate (addresses d k).length a :=
    List.eq_replicate_of_mem h
  rw [oldest, newest, hrep, List.head?_replicate, List.getLast?_replicate]

/-- The search from the front of the list. -/
theorem oldest_eq_find? (d : List (κ × α)) (k : κ) :
    oldest d k = (d.find? fun x => x.1 = k).map (·.2) := by
  rw [oldest, addresses, List.head?_map, List.head?_filter]

end Directory
