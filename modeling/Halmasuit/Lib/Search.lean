import Mathlib.Data.List.Basic
import Mathlib.Order.Lattice

/-!
# A search that may fail

`List.findM?` with a test that may fail looks at the elements in turn, up to the first that passes or
fails the test. In a sorted list this is the least one (`settles_findM?`), and so the answer depends
on which elements there are, and not on how they were found (`Settles.unique`).
-/

namespace Halmasuit.Lib.Search

variable {α ε : Type}

/-- What is found at `a`. -/
def answer (a : α) : Except ε Bool → Except ε (Option α)
  | .ok _ => .ok (some a)
  | .error e => .error e

theorem findM?_refused {test : α → Except ε Bool} {a : α} (h : test a = .ok false) (l : List α) :
    (a :: l).findM? test = l.findM? test := by
  simp [List.findM?, h, bind, Except.bind]

theorem findM?_first {test : α → Except ε Bool} {a : α} (h : test a ≠ .ok false) (l : List α) :
    (a :: l).findM? test = answer a (test a) := by
  cases htest : test a with
  | error e => simp [List.findM?, htest, bind, Except.bind, answer]
  | ok passes =>
    cases passes with
    | true => simp [List.findM?, htest, bind, Except.bind, pure, Except.pure, answer]
    | false => exact absurd htest h

variable [LinearOrder α]

/-- `a` is the least element that is not refused. -/
structure First (test : α → Except ε Bool) (elem : α → Prop) (a : α) : Prop where
  mem : elem a
  test_ne : test a ≠ .ok false
  before : ∀ b, elem b → b < a → test b = .ok false

/-- The answer: what is found at the least element that is not refused, or nothing. -/
def Settles (test : α → Except ε Bool) (elem : α → Prop) (r : Except ε (Option α)) : Prop :=
  ((∀ a, elem a → test a = .ok false) ∧ r = .ok none) ∨
    ∃ a, First test elem a ∧ r = answer a (test a)

/-- A sorted list is searched from its least element on. -/
theorem settles_findM? (test : α → Except ε Bool) {l : List α} (h : l.Pairwise (· < ·)) :
    Settles test (· ∈ l) (l.findM? test) := by
  induction l with
  | nil => exact .inl ⟨fun _ hmem => (List.not_mem_nil hmem).elim, rfl⟩
  | cons a l ih =>
    obtain ⟨hfirst, hrest⟩ := List.pairwise_cons.mp h
    by_cases htest : test a = .ok false
    · rw [findM?_refused htest]
      rcases ih hrest with ⟨hnone, heq⟩ | ⟨b, hb, heq⟩
      · refine .inl ⟨fun b hb => ?_, heq⟩
        rcases List.mem_cons.mp hb with rfl | hb
        · exact htest
        · exact hnone b hb
      · refine .inr ⟨b, ⟨List.mem_cons_of_mem a hb.mem, hb.test_ne, fun c hc hlt => ?_⟩, heq⟩
        rcases List.mem_cons.mp hc with rfl | hc
        · exact htest
        · exact hb.before c hc hlt
    · rw [findM?_first htest]
      refine .inr ⟨a, ⟨List.mem_cons_self, htest, fun b hb hlt => ?_⟩, rfl⟩
      rcases List.mem_cons.mp hb with rfl | hb
      · exact absurd hlt (lt_irrefl b)
      · exact absurd hlt (lt_asymm (hfirst b hb))

theorem First.unique {test : α → Except ε Bool} {elem : α → Prop} {a b : α}
    (ha : First test elem a) (hb : First test elem b) : a = b := by
  rcases lt_trichotomy a b with hlt | heq | hlt
  · exact absurd (hb.before a ha.mem hlt) ha.test_ne
  · exact heq
  · exact absurd (ha.before b hb.mem hlt) hb.test_ne

/-- There is one answer. -/
theorem Settles.unique {test : α → Except ε Bool} {elem : α → Prop} {r r' : Except ε (Option α)}
    (h : Settles test elem r) (h' : Settles test elem r') : r = r' := by
  rcases h with ⟨hnone, rfl⟩ | ⟨a, ha, rfl⟩ <;> rcases h' with ⟨hnone', rfl⟩ | ⟨b, hb, rfl⟩
  · rfl
  · exact absurd (hnone b hb.mem) hb.test_ne
  · exact absurd (hnone' a ha.mem) ha.test_ne
  · rw [ha.unique hb]

end Halmasuit.Lib.Search
