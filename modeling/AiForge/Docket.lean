import Mathlib

/-! # Dockets

A docket numbers what is entered in it, one number after the other, and lists the numbers that
are still open. A number is never given twice, so what was struck out stays out. -/
namespace Dockets

structure Docket where
  last : ℕ
  pending : List ℕ

/-- The next number. -/
def Docket.enter (d : Docket) : Docket := ⟨d.last + 1, d.pending ++ [d.last + 1]⟩

/-- What may become of a docket: of the numbers that were given, some are struck out. -/
structure Follows (d e : Docket) : Prop where
  last : d.last ≤ e.last
  pending : ∀ n ∈ e.pending, n ≤ d.last → n ∈ d.pending

def Spent (d : Docket) (n : ℕ) : Prop := n ≤ d.last ∧ n ∉ d.pending

/-- No number is open before it was given, and none is listed twice. -/
structure Orderly (d : Docket) : Prop where
  given : ∀ n ∈ d.pending, n ≤ d.last
  nodup : d.pending.Nodup

variable {d e f : Docket} {n : ℕ} {xs : List ℕ}

theorem Spent.follows (h : Spent d n) (hf : Follows d e) : Spent e n := by
  constructor
  · exact h.1.trans hf.last
  · intro hn
    exact h.2 (hf.pending n hn h.1)

theorem follows_enter (d : Docket) : Follows d d.enter := by
  constructor
  · exact Nat.le_succ _
  · intro n hn hle
    rcases List.mem_append.1 hn with hn | hn
    · exact hn
    · have heq := List.mem_singleton.1 hn
      omega

theorem follows_sublist (h : xs.Sublist d.pending) : Follows d ⟨d.last, xs⟩ :=
  ⟨le_rfl, fun _ hn _ => h.subset hn⟩

theorem Orderly.enter (h : Orderly d) : Orderly d.enter := by
  constructor
  · intro n hn
    rcases List.mem_append.1 hn with hn | hn
    · exact (h.given n hn).trans (Nat.le_succ _)
    · exact (List.mem_singleton.1 hn).le
  · rw [Docket.enter, List.nodup_append]
    refine ⟨h.nodup, List.nodup_singleton _, ?_⟩
    intro a ha b hb
    have hle := h.given a ha
    have heq := List.mem_singleton.1 hb
    omega

theorem Orderly.sublist (h : Orderly d) (hs : xs.Sublist d.pending) : Orderly ⟨d.last, xs⟩ :=
  ⟨fun n hn => h.given n (hs.subset hn), h.nodup.sublist hs⟩

end Dockets
