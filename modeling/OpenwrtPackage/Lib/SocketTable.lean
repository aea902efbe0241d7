/-
**The descriptor table of a process that serves connections.**

A server knows a connection by the number of its descriptor, and the operating system hands a
number out again once it is closed.  Two connections that used the same number at different times
are told apart here by a serial number that is never used twice.

* `SocketTable` — the open descriptors, each with the connection it belongs to; a table that gave
  one descriptor to two connections, or one connection two descriptors, cannot be built;
* `SocketTable.accept`, `SocketTable.close` — a new connection on a free descriptor, and the end of
  one;
* `SocketTable.owner`, `SocketTable.Alive` — the connection behind a descriptor, and whether a
  connection is still open;
* `SocketTable.owner_eq_some_iff`, `SocketTable.fd_unique`, `SocketTable.id_unique` — descriptors
  and connections determine each other;
* `SocketTable.mem_accept`, `SocketTable.mem_close` — what the two operations do to the table.
-/
import Mathlib.Data.Int.Notation
import Mathlib.Data.List.Nodup

set_option relaxedAutoImplicit false
set_option autoImplicit false

/-- The open descriptors of a process.  The entry `(fd, c)` says that `fd` is the socket of the
connection with serial number `c`; `next` is the serial number of the connection to come. -/
structure SocketTable where
  entries : List (ℤ × ℕ)
  next : ℕ
  fds_nodup : (entries.map Prod.fst).Nodup
  ids_nodup : (entries.map Prod.snd).Nodup
  ids_lt : ∀ p ∈ entries, p.2 < next

namespace SocketTable

/-- No descriptor is open. -/
def empty : SocketTable where
  entries := []
  next := 0
  fds_nodup := List.nodup_nil
  ids_nodup := List.nodup_nil
  ids_lt := by simp

/-- The open descriptors. -/
def fds (t : SocketTable) : List ℤ := t.entries.map Prod.fst

/-- The connection with serial number `c` is open. -/
def Alive (t : SocketTable) (c : ℕ) : Prop := c ∈ t.entries.map Prod.snd

instance (t : SocketTable) (c : ℕ) : Decidable (t.Alive c) :=
  inferInstanceAs (Decidable (c ∈ t.entries.map Prod.snd))

/-- A new connection, on a descriptor that is not open. -/
def accept (t : SocketTable) (fd : ℤ) (h : fd ∉ t.fds) : SocketTable where
  entries := t.entries ++ [(fd, t.next)]
  next := t.next + 1
  fds_nodup := by
    rw [List.map_append]
    refine List.nodup_append.2 ⟨t.fds_nodup, by simp, ?_⟩
    intro a ha b hb hab
    simp only [List.map_cons, List.map_nil, List.mem_singleton] at hb
    exact h (hb ▸ hab ▸ ha)
  ids_nodup := by
    rw [List.map_append]
    refine List.nodup_append.2 ⟨t.ids_nodup, by simp, ?_⟩
    intro a ha b hb hab
    simp only [List.map_cons, List.map_nil, List.mem_singleton] at hb
    obtain ⟨p, hp, rfl⟩ := List.mem_map.1 ha
    have hlt := t.ids_lt p hp
    omega
  ids_lt := by
    intro p hp
    rcases List.mem_append.1 hp with hp | hp
    · exact Nat.lt_succ_of_lt (t.ids_lt p hp)
    · simp only [List.mem_singleton] at hp
      subst hp
      exact Nat.lt_succ_self _

/-- The descriptor `fd` is closed. -/
def close (t : SocketTable) (fd : ℤ) : SocketTable where
  entries := t.entries.filter fun p => p.1 ≠ fd
  next := t.next
  fds_nodup := t.fds_nodup.sublist ((List.filter_sublist ..).map _)
  ids_nodup := t.ids_nodup.sublist ((List.filter_sublist ..).map _)
  ids_lt := fun p hp => t.ids_lt p (List.mem_of_mem_filter hp)

/-- The connection behind the descriptor `fd`. -/
def owner (t : SocketTable) (fd : ℤ) : Option ℕ :=
  (t.entries.find? fun p => p.1 = fd).map Prod.snd

/-! ### Descriptors and connections determine each other -/

/-- A descriptor is open for one connection only. -/
theorem id_unique {t : SocketTable} {fd : ℤ} {c d : ℕ} (hc : (fd, c) ∈ t.entries)
    (hd : (fd, d) ∈ t.entries) : c = d := by
  have h := List.inj_on_of_nodup_map t.fds_nodup hc hd rfl
  exact congrArg Prod.snd h

/-- A connection has one descriptor only. -/
theorem fd_unique {t : SocketTable} {fd gd : ℤ} {c : ℕ} (hf : (fd, c) ∈ t.entries)
    (hg : (gd, c) ∈ t.entries) : fd = gd := by
  have h := List.inj_on_of_nodup_map t.ids_nodup hf hg rfl
  exact congrArg Prod.fst h

theorem mem_fds_iff {t : SocketTable} {fd : ℤ} : fd ∈ t.fds ↔ ∃ c, (fd, c) ∈ t.entries := by
  simp [fds]

theorem alive_iff {t : SocketTable} {c : ℕ} : t.Alive c ↔ ∃ fd, (fd, c) ∈ t.entries := by
  simp [Alive]

theorem owner_eq_some_iff {t : SocketTable} {fd : ℤ} {c : ℕ} :
    t.owner fd = some c ↔ (fd, c) ∈ t.entries := by
  constructor
  · intro h
    obtain ⟨p, hp, rfl⟩ := Option.map_eq_some_iff.1 h
    have hfd : p.1 = fd := by simpa using List.find?_some hp
    rw [← hfd]
    exact List.mem_of_find?_eq_some hp
  · intro h
    obtain ⟨p, hp⟩ : ∃ p, t.entries.find? (fun p => p.1 = fd) = some p := by
      refine Option.isSome_iff_exists.1 (List.find?_isSome.2 ⟨(fd, c), h, by simp⟩)
    have hfd : p.1 = fd := by simpa using List.find?_some hp
    have hmem : (fd, p.2) ∈ t.entries := by
      rw [← hfd]
      exact List.mem_of_find?_eq_some hp
    rw [owner, hp, Option.map_some, id_unique hmem h]

/-! ### The two operations -/

@[simp] theorem mem_accept {t : SocketTable} {fd : ℤ} {h : fd ∉ t.fds} {p : ℤ × ℕ} :
    p ∈ (t.accept fd h).entries ↔ p ∈ t.entries ∨ p = (fd, t.next) := by
  simp [accept]

@[simp] theorem mem_close {t : SocketTable} {fd : ℤ} {p : ℤ × ℕ} :
    p ∈ (t.close fd).entries ↔ p ∈ t.entries ∧ p.1 ≠ fd := by
  simp [close]

@[simp] theorem fds_accept (t : SocketTable) (fd : ℤ) (h : fd ∉ t.fds) :
    (t.accept fd h).fds = t.fds ++ [fd] := by
  simp [accept, fds]

@[simp] theorem fds_close (t : SocketTable) (fd : ℤ) :
    (t.close fd).fds = t.fds.filter (· ≠ fd) := by
  simp only [close, fds, List.filter_map]
  rfl

/-- The connections open after one is closed are those open before, but for that one. -/
theorem alive_close {t : SocketTable} {fd : ℤ} {c : ℕ} (hc : (fd, c) ∈ t.entries) {d : ℕ} :
    (t.close fd).Alive d ↔ t.Alive d ∧ d ≠ c := by
  simp only [alive_iff, mem_close]
  constructor
  · rintro ⟨gd, hgd, hne⟩
    refine ⟨⟨gd, hgd⟩, ?_⟩
    rintro rfl
    exact hne (fd_unique hgd hc)
  · rintro ⟨⟨gd, hgd⟩, hne⟩
    refine ⟨gd, hgd, ?_⟩
    rintro rfl
    exact hne (id_unique hgd hc)

/-- A connection accepted later is none of those seen before. -/
theorem alive_accept {t : SocketTable} {fd : ℤ} {h : fd ∉ t.fds} {d : ℕ} :
    (t.accept fd h).Alive d ↔ t.Alive d ∨ d = t.next := by
  simp [Alive, accept]

end SocketTable
