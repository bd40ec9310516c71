import Mathlib.Data.Set.Finite.Lattice
import Mathlib.Tactic

/-!
# Logs that are swept

A log that entries are appended to, and that is swept from time to time: a sweep removes the entries
a condition covers and then appends a mark of its own. The ledger is the whole history of such a
log. `Survives` says which entries are left, and `gap_marked` that a log swept in this way can
account for its gaps: the mark of the last sweep is left, and it is later than any entry that is
gone.
-/

namespace AccessRelay.Data

universe u v

/-- All that was ever entered, oldest first, and the sweeps, each with the position of its mark. -/
structure Ledger (Entry : Type u) (Cut : Type v) where
  written : List Entry
  sweeps : List (Nat × Cut)
  marked : ∀ sweep ∈ sweeps, sweep.1 < written.length

namespace Ledger

variable {Entry : Type u} {Cut : Type v}

theorem marked_write (l : Ledger Entry Cut) (e : Entry) :
    ∀ sweep ∈ l.sweeps, sweep.1 < (l.written ++ [e]).length := by
  intro sweep hsweep
  have hlt := l.marked sweep hsweep
  rw [List.length_append]
  omega

theorem marked_sweep (l : Ledger Entry Cut) (cut : Cut) (mark : Entry) :
    ∀ sweep ∈ (l.written.length, cut) :: l.sweeps, sweep.1 < (l.written ++ [mark]).length := by
  intro sweep hsweep
  rcases List.mem_cons.mp hsweep with rfl | hsweep
  · simp
  · exact l.marked_write mark sweep hsweep

theorem marked_empty : ∀ sweep ∈ ([] : List (Nat × Cut)), sweep.1 < ([] : List Entry).length :=
  List.forall_mem_nil _

/-- Nothing was entered yet. -/
def empty : Ledger Entry Cut := ⟨[], [], marked_empty⟩

/-- An entry is appended. -/
def write (l : Ledger Entry Cut) (e : Entry) : Ledger Entry Cut :=
  ⟨l.written ++ [e], l.sweeps, l.marked_write e⟩

/-- The log is swept, and the sweep leaves its mark. -/
def sweep (l : Ledger Entry Cut) (cut : Cut) (mark : Entry) : Ledger Entry Cut :=
  ⟨l.written ++ [mark], (l.written.length, cut) :: l.sweeps, l.marked_sweep cut mark⟩

variable (covers : Cut → Entry → Bool)

/-- The entry at this position is still there: no sweep since then covers it. -/
def Survives (l : Ledger Entry Cut) (i : Nat) (e : Entry) : Prop :=
  l.written[i]? = some e ∧ ∀ sweep ∈ l.sweeps, i < sweep.1 → covers sweep.2 e = false

variable {covers} {l : Ledger Entry Cut} {e x : Entry} {i : Nat}

theorem get_append_iff :
    (l.written ++ [e])[i]? = some x ↔ l.written[i]? = some x ∨ i = l.written.length ∧ x = e := by
  rcases Nat.lt_trichotomy i l.written.length with hlt | rfl | hgt
  · simp [List.getElem?_append_left hlt, hlt.ne]
  · simp [eq_comm]
  · have hend : (l.written ++ [e]).length ≤ i := by
      rw [List.length_append]
      exact hgt
    simp [List.getElem?_eq_none hend, List.getElem?_eq_none hgt.le, hgt.ne']

/-- Writing takes nothing away. -/
theorem survives_write :
    (l.write e).Survives covers i x ↔
      l.Survives covers i x ∨ i = l.written.length ∧ x = e := by
  constructor
  · rintro ⟨hget, hswept⟩
    rcases get_append_iff.mp hget with hold | hnew
    · exact .inl ⟨hold, hswept⟩
    · exact .inr hnew
  · rintro (⟨hget, hswept⟩ | ⟨rfl, rfl⟩)
    · exact ⟨get_append_iff.mpr (.inl hget), hswept⟩
    · refine ⟨get_append_iff.mpr (.inr ⟨rfl, rfl⟩), ?_⟩
      intro sweep hsweep hlater
      exact absurd (l.marked sweep hsweep) hlater.not_gt

/-- A sweep takes away what it covers, but not its own mark. -/
theorem survives_sweep {cut : Cut} :
    (l.sweep cut e).Survives covers i x ↔
      l.Survives covers i x ∧ covers cut x = false ∨ i = l.written.length ∧ x = e := by
  constructor
  · rintro ⟨hget, hswept⟩
    rcases get_append_iff.mp hget with hold | hnew
    · obtain ⟨hlt, -⟩ := List.getElem?_eq_some_iff.mp hold
      have hcut := hswept _ List.mem_cons_self hlt
      exact .inl ⟨⟨hold, fun s hs => hswept s (List.mem_cons_of_mem _ hs)⟩, hcut⟩
    · exact .inr hnew
  · rintro (⟨⟨hget, hswept⟩, hcut⟩ | ⟨rfl, rfl⟩)
    · refine ⟨get_append_iff.mpr (.inl hget), ?_⟩
      intro sweep hsweep hlater
      rcases List.mem_cons.mp hsweep with rfl | hsweep
      · exact hcut
      · exact hswept sweep hsweep hlater
    · refine ⟨get_append_iff.mpr (.inr ⟨rfl, rfl⟩), ?_⟩
      intro sweep hsweep hlater
      have hlt := l.marked_sweep cut x sweep hsweep
      rw [List.length_append, List.length_singleton] at hlt
      omega

/-- For an entry that is gone, the mark of a later sweep is still there. -/
theorem gap_marked (hlt : i < l.written.length) (hgone : ∀ e, ¬ l.Survives covers i e) :
    ∃ sweep ∈ l.sweeps, i < sweep.1 ∧ ∃ mark, l.Survives covers sweep.1 mark := by
  have hcovered : ∃ sweep ∈ l.sweeps, i < sweep.1 := by
    by_contra hnone
    push Not at hnone
    refine hgone (l.written[i]) ⟨List.getElem?_eq_getElem hlt, ?_⟩
    intro sweep hsweep hlater
    exact absurd hlater (hnone sweep hsweep).not_gt
  obtain ⟨first, hfirst, hlater⟩ := hcovered
  -- the last sweep of all: no sweep follows its mark
  obtain ⟨last, hlast, hmax⟩ :=
    Set.exists_max_image { s | s ∈ l.sweeps } (·.1) l.sweeps.finite_toSet ⟨first, hfirst⟩
  have hmark := List.getElem?_eq_getElem (l.marked last hlast)
  refine ⟨last, hlast, hlater.trans_le (hmax first hfirst), _, hmark, ?_⟩
  intro sweep hsweep hafter
  exact absurd hafter (hmax sweep hsweep).not_gt

end Ledger

end AccessRelay.Data
