/-
**The pieces of a stream.**

A stream is cut at separators, and the empty pieces between two of them are left out.  The bytes
behind the last separator are a piece that has not ended yet, so the pieces of a stream can be found
bit by bit, whatever the bits are.

* `Pieces.feed` — the pieces that end in a bit of a stream, and the one that does not, when another
  one has begun in front of it;
* `Pieces.feed_append` — **a stream can be fed bit by bit**;
* `Pieces.feed_open`, `Pieces.feed_close`, `Pieces.feed_separators` — a bit without a separator,
  a piece that ends, and separators alone;
* `Pieces.dropWhile_open_or_closed` — what stands behind the separators in front;
* `Pieces.exists_piece_of_prefix` — what has begun is the front of a piece.
-/
import Mathlib.Data.List.TakeWhile

set_option relaxedAutoImplicit false
set_option autoImplicit false

namespace Pieces

variable {α : Type*} (sep : α → Bool)

/-- The pieces that end in a bit of a stream, and the one that has not ended, when `current` has
begun in front of it. -/
def feed (current : List α) : List α → List (List α) × List α
  | [] => ([], current)
  | b :: s =>
      if sep b then
        if current = [] then feed [] s else (current :: (feed [] s).1, (feed [] s).2)
      else feed (current ++ [b]) s

/-- All pieces of a stream, the last one included that has not ended. -/
def pieces (s : List α) : List (List α) := (feed sep [] s).1 ++ [(feed sep [] s).2]

variable {sep}

/-- **A stream can be fed bit by bit.** -/
theorem feed_append (current s t : List α) :
    feed sep current (s ++ t) =
      ((feed sep current s).1 ++ (feed sep (feed sep current s).2 t).1,
        (feed sep (feed sep current s).2 t).2) := by
  induction s generalizing current with
  | nil => rfl
  | cons b s ih =>
      rw [List.cons_append, feed, feed]
      by_cases hb : sep b = true
      · rw [if_pos hb, if_pos hb]
        by_cases hc : current = []
        · rw [if_pos hc, if_pos hc]
          exact ih []
        · rw [if_neg hc, if_neg hc, ih []]
          rfl
      · rw [if_neg hb, if_neg hb]
        exact ih (current ++ [b])

theorem pieces_congr {s t : List α} (h : feed sep [] s = feed sep [] t) (rest : List α) :
    pieces sep (s ++ rest) = pieces sep (t ++ rest) := by
  rw [pieces, pieces, feed_append, feed_append, h]

/-- A bit without a separator goes on with the piece that has begun. -/
theorem feed_open (current : List α) {s : List α} (h : ∀ b ∈ s, sep b = false) :
    feed sep current s = ([], current ++ s) := by
  induction s generalizing current with
  | nil => simp [feed]
  | cons b s ih =>
      obtain ⟨hb, hs⟩ := List.forall_mem_cons.1 h
      rw [feed, if_neg (by rw [hb]; decide), ih _ hs, List.append_assoc, List.singleton_append]

theorem feed_separators {s : List α} (h : ∀ b ∈ s, sep b = true) : feed sep [] s = ([], []) := by
  induction s with
  | nil => rfl
  | cons b s ih =>
      obtain ⟨hb, hs⟩ := List.forall_mem_cons.1 h
      rw [feed, if_pos hb, if_pos rfl, ih hs]

/-- A separator ends the piece. -/
theorem feed_close {current : List α} (hne : current ≠ []) {b : α} (hb : sep b = true)
    (s : List α) :
    feed sep current (b :: s) = (current :: (feed sep [] s).1, (feed sep [] s).2) := by
  rw [feed, if_pos hb, if_neg hne]

/-- Separators, a piece and what ends it. -/
theorem feed_piece {before body : List α} (hbefore : ∀ b ∈ before, sep b = true)
    (hbody : ∀ b ∈ body, sep b = false) (hne : body ≠ []) {b : α} (hb : sep b = true)
    (s : List α) :
    feed sep [] (before ++ (body ++ b :: s)) =
      (body :: (feed sep [] s).1, (feed sep [] s).2) := by
  have hopen : feed sep [] body = ([], body) := feed_open [] hbody
  rw [feed_append, feed_separators hbefore, feed_append, hopen]
  simp only [feed_close hne hb, List.nil_append]

/-- A stream is a piece and what ends it, or has no separator. -/
theorem open_or_closed (s : List α) :
    (∀ b ∈ s, sep b = false) ∨ ∃ body b rest, s = body ++ b :: rest ∧
      (∀ c ∈ body, sep c = false) ∧ sep b = true := by
  induction s with
  | nil => exact Or.inl fun _ h => absurd h List.not_mem_nil
  | cons c s ih =>
      cases hc : sep c with
      | true => exact Or.inr ⟨[], c, s, rfl, fun _ h => absurd h List.not_mem_nil, hc⟩
      | false =>
          rcases ih with hopen | ⟨body, b, rest, rfl, hbody, hb⟩
          · exact Or.inl (List.forall_mem_cons.2 ⟨hc, hopen⟩)
          · exact Or.inr ⟨c :: body, b, rest, rfl, List.forall_mem_cons.2 ⟨hc, hbody⟩, hb⟩

theorem sep_of_dropWhile {s t : List α} {b : α} (h : s.dropWhile sep = b :: t) : sep b = false := by
  induction s with
  | nil => cases h
  | cons c s ih =>
      rw [List.dropWhile_cons] at h
      split at h
      · exact ih h
      · next hc =>
          rw [List.cons.injEq] at h
          rw [← h.1]
          exact Bool.not_eq_true _ ▸ hc

/-- Behind the separators in front there is a piece and what ends it, or no separator. -/
theorem dropWhile_open_or_closed (s : List α) :
    (∀ b ∈ s.dropWhile sep, sep b = false) ∨ ∃ body b rest,
      s.dropWhile sep = body ++ b :: rest ∧ (∀ c ∈ body, sep c = false) ∧ body ≠ [] ∧
        sep b = true := by
  rcases @open_or_closed _ sep (s.dropWhile sep) with hopen | ⟨body, b, rest, hs, hbody, hb⟩
  · exact Or.inl hopen
  · refine Or.inr ⟨body, b, rest, hs, hbody, ?_, hb⟩
    rintro rfl
    have hfalse := sep_of_dropWhile hs
    rw [hb] at hfalse
    cases hfalse

theorem feed_dropWhile {s : List α} (h : ∀ b ∈ s.dropWhile sep, sep b = false) :
    feed sep [] s = ([], s.dropWhile sep) := by
  have hopen : feed sep [] (s.dropWhile sep) = ([], s.dropWhile sep) := feed_open [] h
  have hbefore : ∀ b ∈ s.takeWhile sep, sep b = true := fun b hb => List.mem_takeWhile_imp hb
  calc feed sep [] s = feed sep [] (s.takeWhile sep ++ s.dropWhile sep) := by
        rw [List.takeWhile_append_dropWhile]
    _ = ([], s.dropWhile sep) := by
        rw [feed_append, feed_separators hbefore, hopen]
        rfl

/-- What has begun goes on in a piece of the whole. -/
theorem exists_prefix_of_open (current s : List α) (hne : current ≠ []) :
    ∃ p ∈ (feed sep current s).1 ++ [(feed sep current s).2], current <+: p := by
  induction s generalizing current with
  | nil => exact ⟨current, List.mem_singleton_self _, List.prefix_refl _⟩
  | cons b s ih =>
      rw [feed]
      split
      · exact ⟨current, List.mem_cons_self, List.prefix_refl _⟩
      · obtain ⟨p, hp, hprefix⟩ := ih (current ++ [b]) (by simp)
        exact ⟨p, hp, (List.prefix_append current [b]).trans hprefix⟩

/-- **What has begun after a bit of the stream is the front of a piece of the whole.** -/
theorem exists_piece_of_prefix {s t : List α} (hne : (feed sep [] s).2 ≠ []) :
    ∃ p ∈ pieces sep (s ++ t), (feed sep [] s).2 <+: p := by
  obtain ⟨p, hp, hprefix⟩ := @exists_prefix_of_open _ sep (feed sep [] s).2 t hne
  refine ⟨p, ?_, hprefix⟩
  rw [pieces, feed_append, List.append_assoc]
  exact List.mem_append_right _ hp

end Pieces
