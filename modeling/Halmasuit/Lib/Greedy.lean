import Mathlib.Data.List.Perm.Subperm
import Mathlib.Data.List.Forall2

/-!
# First fit

Each element of a list in turn takes the first of its candidates that nobody before it took, or
goes without one. This is not a maximum matching: an element with a choice can take the only
candidate of a later one.

- `mem_reach_of_mem_firstFit`, `nodup_taken_firstFit`: everybody has a candidate of their own;
- `firstFit_skipped`: who goes without found all the candidates taken;
- `firstFit_complete`: nobody does, if there is a way to serve all and a choice never reaches into
  the candidates of a later element that is worse off.
-/

namespace Halmasuit.Lib.Greedy

variable {α β : Type}

/-- What was taken. -/
def taken (ps : List (α × Option β)) : List β := ps.filterMap Prod.snd

@[simp] theorem taken_nil : taken ([] : List (α × Option β)) = [] := rfl

@[simp] theorem taken_cons_some (a : α) (b : β) (ps : List (α × Option β)) :
    taken ((a, some b) :: ps) = b :: taken ps := rfl

@[simp] theorem taken_cons_none (a : α) (ps : List (α × Option β)) :
    taken ((a, none) :: ps) = taken ps := rfl

/-- Of an assignment, the part that serves the elements of a class. -/
theorem exists_sublist_of_forall₂ {R : α → β → Prop} {as : List α} {bs : List β}
    (h : List.Forall₂ R as bs) (C : α → Bool) :
    ∃ bs' : List β, bs'.Sublist bs ∧ bs'.length = as.countP C ∧
      ∀ b ∈ bs', ∃ a, C a = true ∧ R a b := by
  induction h with
  | nil => exact ⟨[], .slnil, rfl, nofun⟩
  | cons hab _ ih =>
    rename_i a b as bs _
    obtain ⟨bs', hsub, hlen, hall⟩ := ih
    by_cases hC : C a = true
    · refine ⟨b :: bs', hsub.cons_cons b, ?_, ?_⟩
      · rw [List.countP_cons_of_pos hC, List.length_cons, hlen]
      · intro b' hb'
        rcases List.mem_cons.mp hb' with rfl | hb'
        · exact ⟨a, hC, hab⟩
        · exact hall b' hb'
    · exact ⟨bs', hsub.cons b, by rw [List.countP_cons_of_neg hC, hlen], hall⟩

/-- As many were taken as there are elements that took them, at most. -/
theorem length_filter_taken_le (P : β → Bool) (C : α → Bool) (ps : List (α × Option β))
    (h : ∀ a b, (a, some b) ∈ ps → P b = true → C a = true) :
    ((taken ps).filter P).length ≤ (ps.map Prod.fst).countP C := by
  induction ps with
  | nil => simp
  | cons p ps ih =>
    have hle := ih fun a b hmem => h a b (List.mem_cons_of_mem _ hmem)
    obtain ⟨a, _ | b⟩ := p
    · rw [taken_cons_none, List.map_cons, List.countP_cons]
      omega
    · rw [taken_cons_some, List.map_cons, List.countP_cons]
      by_cases hP : P b = true
      · rw [List.filter_cons_of_pos hP, if_pos (h a b List.mem_cons_self hP), List.length_cons]
        omega
      · rw [List.filter_cons_of_neg hP]
        omega

/-- There is a candidate for each, and no candidate for two. -/
def Assignable (reach : α → List β) (as : List α) : Prop :=
  ∃ bs, List.Forall₂ (fun a b => b ∈ reach a) as bs ∧ bs.Nodup

/-- Where the candidates of an element meet those of a later one, they are among them. -/
def Nested (reach : α → List β) (as : List α) : Prop :=
  as.Pairwise fun a a' => (∀ b ∈ reach a, b ∈ reach a') ∨ ∀ b ∈ reach a, b ∉ reach a'

variable [DecidableEq β]

/-- What each element takes, when `used` is taken already. -/
def firstFit (reach : α → List β) (used : List β) : List α → List (α × Option β)
  | [] => []
  | a :: as =>
    match (reach a).find? (fun b => decide (b ∉ used)) with
    | some b => (a, some b) :: firstFit reach (used ++ [b]) as
    | none => (a, none) :: firstFit reach used as

variable {reach : α → List β} {used : List β} {as : List α}

theorem firstFit_some {a : α} {b : β}
    (h : (reach a).find? (fun b => decide (b ∉ used)) = some b) :
    firstFit reach used (a :: as) = (a, some b) :: firstFit reach (used ++ [b]) as := by
  simp only [firstFit, h]

theorem firstFit_none {a : α} (h : (reach a).find? (fun b => decide (b ∉ used)) = none) :
    firstFit reach used (a :: as) = (a, none) :: firstFit reach used as := by
  simp only [firstFit, h]

@[simp] theorem map_fst_firstFit : (firstFit reach used as).map Prod.fst = as := by
  induction as generalizing used with
  | nil => rfl
  | cons a as ih =>
    cases h : (reach a).find? (fun b => decide (b ∉ used)) with
    | some b => rw [firstFit_some h, List.map_cons, ih]
    | none => rw [firstFit_none h, List.map_cons, ih]

theorem mem_reach_of_mem_firstFit {a : α} {b : β} (h : (a, some b) ∈ firstFit reach used as) :
    b ∈ reach a := by
  induction as generalizing used with
  | nil => cases h
  | cons a' as ih =>
    cases hf : (reach a').find? (fun b => decide (b ∉ used)) with
    | some b' =>
      rw [firstFit_some hf] at h
      rcases List.mem_cons.mp h with heq | h
      · cases heq
        exact List.mem_of_find?_eq_some hf
      · exact ih h
    | none =>
      rw [firstFit_none hf] at h
      rcases List.mem_cons.mp h with heq | h
      · cases heq
      · exact ih h

theorem nodup_taken_firstFit (h : used.Nodup) :
    (used ++ taken (firstFit reach used as)).Nodup := by
  induction as generalizing used with
  | nil => simpa [firstFit] using h
  | cons a as ih =>
    cases hf : (reach a).find? (fun b => decide (b ∉ used)) with
    | some b =>
      have hb : b ∉ used := by simpa using List.find?_some hf
      have hcons : (used ++ [b]).Nodup := List.nodup_append.mpr ⟨h, by simp, by
        rintro c hc _ hcb rfl
        exact hb (List.mem_singleton.mp hcb ▸ hc)⟩
      rw [firstFit_some hf, taken_cons_some, List.append_cons]
      exact ih hcons
    | none =>
      rw [firstFit_none hf, taken_cons_none]
      exact ih h

/-- Who goes without found every candidate taken. -/
theorem firstFit_skipped {pre post : List (α × Option β)} {a : α}
    (h : firstFit reach used as = pre ++ (a, none) :: post) :
    ∀ b ∈ reach a, b ∈ used ++ taken pre := by
  induction as generalizing used pre with
  | nil => simp [firstFit] at h
  | cons a' as ih =>
    cases hf : (reach a').find? (fun b => decide (b ∉ used)) with
    | some b' =>
      rw [firstFit_some hf] at h
      cases pre with
      | nil => cases h
      | cons p pre =>
        obtain ⟨rfl, htail⟩ := List.cons.inj h
        rw [taken_cons_some, List.append_cons]
        exact ih htail
    | none =>
      rw [firstFit_none hf] at h
      cases pre with
      | nil =>
        cases h
        simpa using hf
      | cons p pre =>
        obtain ⟨rfl, htail⟩ := List.cons.inj h
        rw [taken_cons_none]
        exact ih htail

/-- Nobody goes without, where everybody can be served and the candidates are nested. Those who
took candidates of `a` before it have no others, so with `a` they are more than the candidates. -/
theorem firstFit_complete (hnest : Nested reach as) (hass : Assignable reach as) :
    ∀ p ∈ firstFit reach [] as, p.2 ≠ none := by
  rintro ⟨a, _⟩ hmem rfl
  obtain ⟨pre, post, hsplit⟩ := List.append_of_mem hmem
  have hskip : ∀ b ∈ reach a, b ∈ taken pre := by simpa using firstFit_skipped hsplit
  have has : as = pre.map Prod.fst ++ a :: post.map Prod.fst := by
    have hfst : (firstFit reach [] as).map Prod.fst = as := map_fst_firstFit
    rw [← hfst, hsplit, List.map_append, List.map_cons]
  let C : α → Bool := fun a' => decide (∀ b ∈ reach a', b ∈ reach a)
  -- Each candidate of `a` was taken by an element of `C`.
  have hC : ∀ a' b, (a', some b) ∈ pre → decide (b ∈ reach a) = true → C a' = true := by
    intro a' b hpre hb
    have hbefore : (∀ b ∈ reach a', b ∈ reach a) ∨ ∀ b ∈ reach a', b ∉ reach a := by
      rw [has] at hnest
      exact (List.pairwise_append.mp hnest).2.2 a' (List.mem_map_of_mem hpre) a List.mem_cons_self
    have hserved : (a', some b) ∈ firstFit reach [] as := by
      rw [hsplit]
      exact List.mem_append_left _ hpre
    have hb' := mem_reach_of_mem_firstFit hserved
    rcases hbefore with hsub | hdis
    · exact decide_eq_true hsub
    · exact absurd (of_decide_eq_true hb) (hdis b hb')
  have hfew := length_filter_taken_le (fun b => decide (b ∈ reach a)) C pre hC
  -- An assignment serves the elements of `C` and `a`, all from the candidates of `a`.
  obtain ⟨bs, hbs, hnodup⟩ := hass
  rw [has] at hbs
  obtain ⟨bs', hsub, hlen, hall⟩ := exists_sublist_of_forall₂ hbs C
  have hinto : bs' ⊆ (taken pre).filter fun b => decide (b ∈ reach a) := by
    intro b hb
    obtain ⟨a', ha', hb'⟩ := hall b hb
    have hba : b ∈ reach a := of_decide_eq_true ha' b hb'
    exact List.mem_filter.mpr ⟨hskip b hba, decide_eq_true hba⟩
  have hmany := ((hnodup.sublist hsub).subperm hinto).length_le
  have ha : C a = true := decide_eq_true fun b hb => hb
  rw [hlen, List.countP_append, List.countP_cons_of_pos ha] at hmany
  omega

end Halmasuit.Lib.Greedy
