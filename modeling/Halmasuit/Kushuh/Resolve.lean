import Mathlib.Data.List.Perm.Basic
import Halmasuit.Kushuh.Parse

/-!
# Regions and the systems that use them

The loop of `parse` is marked as the first of two passes, and is the only one: a system is read with
the regions that stand before it. `TwoPass` is the reading that the mark is about, with all the
regions of the document for every system.

- `parseDocument_iff`: the loop accepts what the two passes accept, if each region is defined before
  the systems that use it (`Visible`);
- `parseDocument_resolves`: what a document that is accepted becomes;
- `rearranged_iff`: when moving the definitions changes nothing.
-/

namespace Halmasuit.Kushuh

open Lib Lib.Kdl

/-! ## Tables of regions -/

theorem Regions.get_append (a b : Regions) (name : String) :
    Regions.get (a ++ b) name = (a.get name).or (b.get name) := List.lookup_append

/-- What a table without duplicates has under a name. -/
theorem Regions.get_eq_some {regions : Regions} (hnodup : (regions.map Prod.fst).Nodup)
    {name : String} {geometry : String × Region} :
    regions.get name = some geometry ↔ (name, geometry) ∈ regions := by
  induction regions with
  | nil => simp [Regions.get]
  | cons d regions ih =>
    obtain ⟨n, g⟩ := d
    rw [List.map_cons, List.nodup_cons] at hnodup
    rw [Regions.get, List.lookup_cons]
    by_cases hn : name = n
    · subst hn
      simp only [beq_self_eq_true, Option.some.injEq, List.mem_cons, Prod.mk.injEq,
        true_and]
      constructor
      · rintro rfl
        exact .inl rfl
      · rintro (rfl | hmem)
        · rfl
        · exact absurd (List.mem_map_of_mem hmem) hnodup.1
    · simp only [beq_eq_false_iff_ne.mpr hn, List.mem_cons, Prod.mk.injEq, hn, false_and, false_or]
      exact ih hnodup.2

theorem Regions.get_isSome {regions : Regions} {name : String} :
    (regions.get name).isSome = true ↔ name ∈ regions.map Prod.fst := by
  induction regions with
  | nil => simp [Regions.get]
  | cons d regions ih =>
    obtain ⟨n, g⟩ := d
    rw [Regions.get, List.lookup_cons, List.map_cons, List.mem_cons]
    by_cases hn : name = n
    · simp [hn]
    · simp only [beq_eq_false_iff_ne.mpr hn, hn, false_or]
      exact ih

/-! ## What a system needs -/

/-- A role of the system names the region. -/
def NamesRegion (node : KdlNode) (reference : String) : Prop :=
  ∃ role ∈ node.children, stringProp role "region" = some reference

section
variable {t t' : String → Option (String × Region)}

/-- A larger table reads the same role, and the smaller one reads it too if it has the region. -/
theorem readsRole_iff (ht : ∀ k v, t k = some v → t' k = some v) {node : KdlNode} {role : Role} :
    ReadsRole t node role ↔ ReadsRole t' node role ∧
      ∀ reference, stringProp node "region" = some reference → (t reference).isSome = true := by
  constructor
  · rintro ⟨hname, hgeometry, hbinding⟩
    rcases hgeometry with ⟨reference, href, hm, hr, hget⟩ | ⟨href, hown⟩
    · refine ⟨⟨hname, .inl ⟨reference, href, hm, hr, ht _ _ hget⟩, hbinding⟩, ?_⟩
      intro reference' href'
      obtain rfl := Option.some.inj (href.symm.trans href')
      rw [hget]
      rfl
    · refine ⟨⟨hname, .inr ⟨href, hown⟩, hbinding⟩, ?_⟩
      intro reference' href'
      cases href.symm.trans href'
  · rintro ⟨⟨hname, hgeometry, hbinding⟩, hknown⟩
    rcases hgeometry with ⟨reference, href, hm, hr, hget⟩ | hown
    · obtain ⟨v, hv⟩ := Option.isSome_iff_exists.mp (hknown reference href)
      obtain rfl := Option.some.inj (hget.symm.trans (ht _ _ hv))
      exact ⟨hname, .inl ⟨reference, href, hm, hr, hv⟩, hbinding⟩
    · exact ⟨hname, .inr hown, hbinding⟩

theorem readsSystem_iff (ht : ∀ k v, t k = some v → t' k = some v) {node : KdlNode}
    {system : System} :
    ReadsSystem t node system ↔ ReadsSystem t' node system ∧
      ∀ reference, NamesRegion node reference → (t reference).isSome = true := by
  have hroles : List.Forall₂ (fun n role => n.name = "role" ∧ ReadsRole t n role)
        node.children system.roles ↔
      List.Forall₂ (fun n role => n.name = "role" ∧ ReadsRole t' n role)
        node.children system.roles ∧
      ∀ reference, NamesRegion node reference → (t reference).isSome = true := by
    unfold NamesRegion
    generalize node.children = nodes
    generalize system.roles = roles
    induction nodes generalizing roles with
    | nil => simp
    | cons n nodes ih =>
      cases roles with
      | nil => simp
      | cons role roles =>
        rw [List.forall₂_cons, List.forall₂_cons, readsRole_iff ht, ih]
        simp only [List.mem_cons, exists_eq_or_imp, or_imp, forall_and]
        tauto
  constructor
  · rintro ⟨hname, h⟩
    exact ⟨⟨hname, (hroles.mp h).1⟩, (hroles.mp h).2⟩
  · rintro ⟨⟨hname, h⟩, hknown⟩
    exact ⟨hname, hroles.mpr ⟨h, hknown⟩⟩

end

/-! ## The loop -/

def isRegion (node : KdlNode) : Bool := decide (node.name = "region")

def isSystem (node : KdlNode) : Bool := decide (node.name = "system")

theorem isRegion_not_isSystem {node : KdlNode} (h : isRegion node = true) :
    ¬ isSystem node = true := by
  simp only [isRegion, isSystem, decide_eq_true_eq] at h ⊢
  rw [h]
  decide

/-- The region definitions. -/
def regionNodes (doc : KdlDocument) : KdlDocument := doc.filter isRegion

/-- The systems. -/
def systemNodes (doc : KdlDocument) : KdlDocument := doc.filter isSystem

/-- There is nothing else at the top level. -/
def Known (doc : KdlDocument) : Prop := ∀ node ∈ doc, isRegion node = true ∨ isSystem node = true

/-- Every region that a system uses has one of the names, or is defined before the system. -/
def VisibleFrom (names : List String) (doc : KdlDocument) : Prop :=
  ∀ pre node post, doc = pre ++ node :: post → isSystem node = true →
    ∀ reference, NamesRegion node reference →
      reference ∈ names ∨ ∃ d ∈ pre, isRegion d = true ∧ HasArg d reference

/-- Every region that a system uses is defined before the system. -/
def Visible (doc : KdlDocument) : Prop := VisibleFrom [] doc

/-- The state with more definitions and systems. -/
def Collected.add (st : Collected) (defs : Regions) (ss : List System) : Collected where
  regions := st.regions ++ defs
  systems := st.systems ++ ss
  seenSystems := (ss.map System.name).reverse ++ st.seenSystems

theorem parseNode_region {st st' : Collected} {node : KdlNode} (hn : isRegion node = true) :
    parseNode st node = .ok st' ↔ ∃ d, ReadsRegion node d ∧ d.1 ∉ st.regions.map Prod.fst ∧
      st' = st.add [d] [] := by
  have hadd : ∀ d, st.add [d] [] = { st with regions := st.regions ++ [d] } := by
    simp [Collected.add]
  unfold parseNode
  rw [if_pos (of_decide_eq_true hn)]
  simp only [bind_eq_ok, parseRegionDef_eq_ok]
  constructor
  · rintro ⟨⟨name, monitor, region⟩, hreads, h⟩
    dsimp only at h
    split at h
    · cases h
    · rename_i hno
      refine ⟨_, hreads, fun hmem => hno (Regions.get_isSome.mpr hmem), ?_⟩
      rw [hadd, ← Except.ok.inj h]
  · rintro ⟨⟨name, monitor, region⟩, hreads, hno, rfl⟩
    refine ⟨_, hreads, ?_⟩
    rw [hadd]
    dsimp only
    rw [if_neg fun hsome => hno (Regions.get_isSome.mp hsome)]

theorem parseNode_system {st st' : Collected} {node : KdlNode} (hn : isSystem node = true) :
    parseNode st node = .ok st' ↔ ∃ s, ReadsSystem st.regions.get node s ∧
      s.name ∉ st.seenSystems ∧ st' = st.add [] [s] := by
  have hadd : ∀ s, st.add [] [s] =
      { st with systems := st.systems ++ [s], seenSystems := s.name :: st.seenSystems } := by
    simp [Collected.add]
  have hname : node.name = "system" := of_decide_eq_true hn
  unfold parseNode
  rw [if_neg (by rw [hname]; decide), if_pos hname]
  simp only [bind_eq_ok, parseSystem_eq_ok]
  refine exists_congr fun s => and_congr_right fun _ => ?_
  split
  · rename_i hmem
    simp [hmem]
  · rename_i hno
    simp only [hno, not_false_eq_true, true_and, hadd]
    exact ⟨fun h => (Except.ok.inj h).symm, fun h => by rw [h]⟩

theorem parseNode_unknown {st st' : Collected} {node : KdlNode} (hr : ¬ isRegion node = true)
    (hs : ¬ isSystem node = true) : parseNode st node ≠ .ok st' := by
  simp only [isRegion, isSystem, decide_eq_true_eq] at hr hs
  unfold parseNode
  rw [if_neg hr, if_neg hs]
  simp

theorem visibleFrom_cons {names : List String} {node : KdlNode} {doc : KdlDocument} :
    VisibleFrom names (node :: doc) ↔
      (isSystem node = true → ∀ reference, NamesRegion node reference → reference ∈ names) ∧
        ∀ pre n post, doc = pre ++ n :: post → isSystem n = true →
          ∀ reference, NamesRegion n reference →
            reference ∈ names ∨ (isRegion node = true ∧ HasArg node reference) ∨
              ∃ d ∈ pre, isRegion d = true ∧ HasArg d reference := by
  constructor
  · intro h
    refine ⟨fun hs reference href => ?_, fun pre n post heq hs reference href => ?_⟩
    · exact (h [] node doc rfl hs reference href).resolve_right (by simp)
    · simpa using h (node :: pre) n post (by rw [heq]; rfl) hs reference href
  · rintro ⟨hhead, htail⟩ pre n post heq hs reference href
    cases pre with
    | nil =>
      obtain ⟨rfl, -⟩ := List.cons.inj heq
      exact .inl (hhead hs reference href)
    | cons _ pre =>
      obtain ⟨rfl, hdoc⟩ := List.cons.inj heq
      simpa using htail pre n post hdoc hs reference href

/-- A region definition adds its name, and a system adds none. -/
theorem visibleFrom_region {names : List String} {node : KdlNode} {doc : KdlDocument}
    (hn : isRegion node = true) {name : String} (hname : HasArg node name) :
    VisibleFrom names (node :: doc) ↔ VisibleFrom (names ++ [name]) doc := by
  have hone : ∀ reference, HasArg node reference ↔ reference = name := by
    intro reference
    constructor
    · exact fun h => h.unique hname
    · rintro rfl
      exact hname
  have hns := isRegion_not_isSystem hn
  rw [visibleFrom_cons]
  simp only [hns, Bool.false_eq_true, false_implies, true_and, hn, hone, VisibleFrom,
    List.mem_append, List.mem_singleton, or_assoc]

theorem visibleFrom_system {names : List String} {node : KdlNode} {doc : KdlDocument}
    (hn : isSystem node = true) :
    VisibleFrom names (node :: doc) ↔
      (∀ reference, NamesRegion node reference → reference ∈ names) ∧ VisibleFrom names doc := by
  have hnr : ¬ isRegion node = true := fun hr => isRegion_not_isSystem hr hn
  rw [visibleFrom_cons]
  simp only [hn, forall_const, hnr, Bool.false_eq_true, false_and, false_or, VisibleFrom]

/-- What the loop adds to its state for a document: the definitions, and the systems that are read
with the table it ends with. -/
structure Collects (st : Collected) (doc : KdlDocument) (defs : Regions) (ss : List System) :
    Prop where
  known : Known doc
  reads : List.Forall₂ ReadsRegion (regionNodes doc) defs
  defs_nodup : ((st.regions ++ defs).map Prod.fst).Nodup
  systems : List.Forall₂ (ReadsSystem (Regions.get (st.regions ++ defs))) (systemNodes doc) ss
  names_nodup : (ss.map System.name).Nodup
  names_new : ∀ s ∈ ss, s.name ∉ st.seenSystems
  visible : VisibleFrom (st.regions.map Prod.fst) doc

section
variable {st : Collected} {node : KdlNode} {doc : KdlDocument} {defs : Regions} {ss : List System}

theorem collects_region (hr : isRegion node = true) :
    Collects st (node :: doc) defs ss ↔ ∃ d defs', defs = d :: defs' ∧ ReadsRegion node d ∧
      d.1 ∉ st.regions.map Prod.fst ∧ Collects (st.add [d] []) doc defs' ss := by
  have hns := isRegion_not_isSystem hr
  have hregions : regionNodes (node :: doc) = node :: regionNodes doc :=
    List.filter_cons_of_pos hr
  have hsystems : systemNodes (node :: doc) = systemNodes doc := List.filter_cons_of_neg hns
  constructor
  · rintro ⟨hknown, hdefs, hnodup, hss, hnames, hnew, hvis⟩
    rw [hregions] at hdefs
    rw [hsystems] at hss
    cases hdefs with
    | @cons _ d _ defs' hd hdefs =>
      have hno : d.1 ∉ st.regions.map Prod.fst := by
        rw [List.map_append, List.map_cons, List.nodup_append] at hnodup
        exact fun hmem => hnodup.2.2 _ hmem _ List.mem_cons_self rfl
      rw [List.append_cons] at hnodup hss
      refine ⟨d, defs', rfl, hd, hno, fun n hn => hknown n (List.mem_cons_of_mem _ hn), hdefs,
        hnodup, hss, hnames, hnew, ?_⟩
      simpa [Collected.add] using (visibleFrom_region hr hd.1).mp hvis
  · rintro ⟨d, defs', rfl, hd, -, hknown, hdefs, hnodup, hss, hnames, hnew, hvis⟩
    refine ⟨List.forall_mem_cons.mpr ⟨.inl hr, hknown⟩, ?_, ?_, ?_, hnames, hnew, ?_⟩
    · rw [hregions]
      exact .cons hd hdefs
    · rw [List.append_cons]
      exact hnodup
    · rw [hsystems, List.append_cons]
      exact hss
    · refine (visibleFrom_region hr hd.1).mpr ?_
      simpa [Collected.add] using hvis

theorem collects_system (hs : isSystem node = true) :
    Collects st (node :: doc) defs ss ↔ ∃ s ss', ss = s :: ss' ∧
      ReadsSystem st.regions.get node s ∧ s.name ∉ st.seenSystems ∧
      Collects (st.add [] [s]) doc defs ss' := by
  have hnr : ¬ isRegion node = true := fun hr => isRegion_not_isSystem hr hs
  have hregions : regionNodes (node :: doc) = regionNodes doc := List.filter_cons_of_neg hnr
  have hsystems : systemNodes (node :: doc) = node :: systemNodes doc :=
    List.filter_cons_of_pos hs
  have hgrow : ∀ k v, st.regions.get k = some v →
      Regions.get (st.regions ++ defs) k = some v := by
    intro k v h
    rw [Regions.get_append, h, Option.some_or]
  have hseen : ∀ s : System, (st.add [] [s]).seenSystems = s.name :: st.seenSystems := fun _ => rfl
  have hsame : ∀ s : System, (st.add [] [s]).regions = st.regions := fun _ => List.append_nil _
  constructor
  · rintro ⟨hknown, hdefs, hnodup, hss, hnames, hnew, hvis⟩
    rw [hregions] at hdefs
    rw [hsystems] at hss
    cases hss with
    | @cons _ s _ ss' hone hss =>
      obtain ⟨hneeds, hvis⟩ := (visibleFrom_system hs).mp hvis
      rw [List.map_cons, List.nodup_cons] at hnames
      refine ⟨s, ss', rfl, (readsSystem_iff hgrow).mpr ⟨hone, ?_⟩, hnew s List.mem_cons_self,
        fun n hn => hknown n (List.mem_cons_of_mem _ hn), hdefs, ?_, ?_, hnames.2, ?_, ?_⟩
      · exact fun reference href => Regions.get_isSome.mpr (hneeds reference href)
      · rwa [hsame]
      · rwa [hsame]
      · intro s' hs'
        rw [hseen, List.mem_cons, not_or]
        exact ⟨fun heq => hnames.1 (heq ▸ List.mem_map_of_mem hs'),
          hnew s' (List.mem_cons_of_mem _ hs')⟩
      · rwa [hsame]
  · rintro ⟨s, ss', rfl, hone, hno, hknown, hdefs, hnodup, hss, hnames, hnew, hvis⟩
    rw [hsame] at hnodup hss hvis
    obtain ⟨hone, hneeds⟩ := (readsSystem_iff hgrow).mp hone
    have hnew' : ∀ s' ∈ ss', s'.name ≠ s.name ∧ s'.name ∉ st.seenSystems := by
      intro s' hs'
      have hno' := hnew s' hs'
      rwa [hseen, List.mem_cons, not_or] at hno'
    refine ⟨List.forall_mem_cons.mpr ⟨.inr hs, hknown⟩, ?_, hnodup, ?_, ?_, ?_, ?_⟩
    · rwa [hregions]
    · rw [hsystems]
      exact .cons hone hss
    · rw [List.map_cons, List.nodup_cons]
      refine ⟨fun hmem => ?_, hnames⟩
      obtain ⟨s', hs', heq⟩ := List.mem_map.mp hmem
      exact (hnew' s' hs').1 heq
    · exact List.forall_mem_cons.mpr ⟨hno, fun s' hs' => (hnew' s' hs').2⟩
    · exact (visibleFrom_system hs).mpr
        ⟨fun reference href => Regions.get_isSome.mp (hneeds reference href), hvis⟩

theorem collects_nil (hnodup : (st.regions.map Prod.fst).Nodup) :
    Collects st [] defs ss ↔ defs = [] ∧ ss = [] := by
  constructor
  · rintro ⟨-, hdefs, -, hss, -, -, -⟩
    cases hdefs
    cases hss
    exact ⟨rfl, rfl⟩
  · rintro ⟨rfl, rfl⟩
    exact ⟨by simp [Known], .nil, by simpa using hnodup, .nil, by simp, by simp,
      fun pre _ _ heq => by simp at heq⟩

theorem add_add (defs' : Regions) (ss' : List System) :
    (st.add defs ss).add defs' ss' = st.add (defs ++ defs') (ss ++ ss') := by
  simp [Collected.add]

/-- What the loop makes of a document, from any state without two regions of one name. -/
theorem foldlM_parseNode {st' : Collected} (hnodup : (st.regions.map Prod.fst).Nodup) :
    doc.foldlM parseNode st = .ok st' ↔
      ∃ defs ss, Collects st doc defs ss ∧ st' = st.add defs ss := by
  induction doc generalizing st with
  | nil =>
    simp only [collects_nil hnodup, List.foldlM_nil]
    constructor
    · intro h
      obtain rfl := Except.ok.inj h
      exact ⟨[], [], ⟨rfl, rfl⟩, by simp [Collected.add]⟩
    · rintro ⟨_, _, ⟨rfl, rfl⟩, rfl⟩
      simp [Collected.add, pure, Except.pure]
  | cons node doc ih =>
    rw [List.foldlM_cons, bind_eq_ok]
    by_cases hr : isRegion node = true
    · have hkeys : ∀ d : String × String × Region, d.1 ∉ st.regions.map Prod.fst →
          ((st.add [d] []).regions.map Prod.fst).Nodup := by
        intro d hno
        rw [Collected.add, List.map_append, List.nodup_append]
        refine ⟨hnodup, by simp, ?_⟩
        rintro n hn _ hd rfl
        exact hno (List.mem_singleton.mp hd ▸ hn)
      simp only [parseNode_region hr, collects_region hr]
      constructor
      · rintro ⟨_, ⟨d, hd, hno, rfl⟩, h⟩
        obtain ⟨defs, ss, hc, rfl⟩ := (ih (hkeys d hno)).mp h
        exact ⟨d :: defs, ss, ⟨d, defs, rfl, hd, hno, hc⟩, add_add _ _⟩
      · rintro ⟨_, ss, ⟨d, defs, rfl, hd, hno, hc⟩, rfl⟩
        exact ⟨_, ⟨d, hd, hno, rfl⟩, (ih (hkeys d hno)).mpr ⟨defs, ss, hc, by rw [add_add]; rfl⟩⟩
    by_cases hs : isSystem node = true
    · have hkeys : ∀ s, ((st.add [] [s]).regions.map Prod.fst).Nodup := by
        intro s
        simpa [Collected.add] using hnodup
      simp only [parseNode_system hs, collects_system hs]
      constructor
      · rintro ⟨_, ⟨s, hone, hno, rfl⟩, h⟩
        obtain ⟨defs, ss, hc, rfl⟩ := (ih (hkeys s)).mp h
        exact ⟨defs, s :: ss, ⟨s, ss, rfl, hone, hno, hc⟩, add_add _ _⟩
      · rintro ⟨defs, _, ⟨s, ss, rfl, hone, hno, hc⟩, rfl⟩
        exact ⟨_, ⟨s, hone, hno, rfl⟩, (ih (hkeys s)).mpr ⟨defs, ss, hc, by rw [add_add]; rfl⟩⟩
    · refine iff_of_false ?_ ?_
      · rintro ⟨st₁, h, -⟩
        exact parseNode_unknown hr hs h
      · rintro ⟨defs, ss, hc, -⟩
        exact (hc.known node List.mem_cons_self).elim hr hs

end

/-- What the loop makes of a document. -/
theorem collect_eq_ok {doc : KdlDocument} {st : Collected} :
    collect doc = .ok st ↔
      ∃ defs ss, Collects ⟨[], [], []⟩ doc defs ss ∧ st = Collected.add ⟨[], [], []⟩ defs ss := by
  have hstart : ((⟨[], [], []⟩ : Collected).regions.map Prod.fst).Nodup := List.nodup_nil
  exact foldlM_parseNode hstart

/-! ## Two passes -/

/-- The reading in two passes: every system is read with all the regions of the document. -/
structure TwoPass (doc : KdlDocument) (cfg : Config) : Prop where
  known : Known doc
  reads : ∃ defs : Regions, List.Forall₂ ReadsRegion (regionNodes doc) defs ∧
    (defs.map Prod.fst).Nodup ∧
    List.Forall₂ (ReadsSystem defs.get) (systemNodes doc) cfg.systems

/-- **The loop.** A document is accepted if the two passes accept it and its regions come before
their uses, and becomes the same layout. -/
theorem parseDocument_iff {doc : KdlDocument} {cfg : Config} :
    parseDocument doc = .ok cfg ↔ TwoPass doc cfg ∧ Visible doc := by
  unfold parseDocument
  simp only [bind_eq_ok, mapError_eq_ok, Config.new_eq_ok, collect_eq_ok]
  constructor
  · rintro ⟨_, ⟨defs, ss, hc, rfl⟩, hcfg⟩
    have hss : cfg.systems = ss := by simpa [Collected.add] using hcfg
    refine ⟨⟨hc.known, defs, hc.reads, by simpa using hc.defs_nodup, ?_⟩, hc.visible⟩
    rw [hss]
    exact hc.systems
  · rintro ⟨⟨hknown, defs, hreads, hnodup, hsystems⟩, hvis⟩
    refine ⟨_, ⟨defs, cfg.systems, ?_, rfl⟩, rfl⟩
    exact ⟨hknown, hreads, hnodup, hsystems, cfg.systems_nodup, fun s _ => List.not_mem_nil, hvis⟩

/-- The order of the definitions does not matter to the two passes. -/
theorem TwoPass.of_perm {doc doc' : KdlDocument} {cfg : Config} (hperm : doc.Perm doc')
    (hsystems : systemNodes doc = systemNodes doc') (h : TwoPass doc cfg) : TwoPass doc' cfg := by
  obtain ⟨hknown, defs, hreads, hnodup, hss⟩ := h
  obtain ⟨defs', hreads', hdefs⟩ :=
    List.perm_comp_forall₂ (hperm.symm.filter isRegion) hreads
  have hnodup' : (defs'.map Prod.fst).Nodup := (hdefs.map Prod.fst).nodup_iff.mpr hnodup
  have hget : Regions.get defs' = Regions.get defs := by
    funext name
    refine Option.ext fun geometry => ?_
    rw [Regions.get_eq_some hnodup', Regions.get_eq_some hnodup, hdefs.mem_iff]
  refine ⟨fun node hn => hknown node (hperm.mem_iff.mpr hn), defs', hreads', hnodup', ?_⟩
  rw [hget, ← hsystems]
  exact hss

/-! ## What an accepted document becomes -/

/-- The monitor and the region of a role are those of the region definition that it names, or of its
own nodes where it names none. -/
def GeometryOf (doc : KdlDocument) (node : KdlNode) (role : Role) : Prop :=
  (∃ reference, stringProp node "region" = some reference ∧ ∃ d ∈ regionNodes doc,
    HasArg d reference ∧ HasMonitor d role.monitor ∧ HasRect d role.region) ∨
  (stringProp node "region" = none ∧ HasMonitor node role.monitor ∧ HasRect node role.region)

/-- A layout holds the systems and the roles of a document. -/
structure Resolved (doc : KdlDocument) (cfg : Config) : Prop where
  /-- One system for each `system` node and one role for each `role` node, in their order. -/
  systems : List.Forall₂ (fun node s => HasArg node s.name ∧
    List.Forall₂ (fun n r => HasArg n r.name ∧ GeometryOf doc n r)
      (node.children.filter fun n => decide (n.name = "role")) s.roles)
    (systemNodes doc) cfg.systems
  /-- A name stands for one region. -/
  regions : (regionNodes doc).Pairwise fun d d' => ∀ name, HasArg d name → ¬ HasArg d' name

/-- An app has an id, and a profile that is given has a label. -/
def AppRef.Valid (app : AppRef) : Prop :=
  blank app.appId = false ∧ ∀ p, app.profile = some p → blank p = false

def Binding.Valid : Binding → Prop
  | .sticky app => app.Valid
  | .cycle candidates _ => 2 ≤ candidates.length ∧ ∀ app ∈ candidates, app.Valid
  | .pattern appId titleRegex _ _ =>
    blank appId = false ∧ ∀ t, titleRegex = some t → blank t = false
  | .flex => True

def Region.Valid (r : Region) : Prop :=
  0 < r.width.toNat ∧ 0 < r.height.toNat ∧ r.x.toNat + r.width.toNat ≤ 100 ∧
    r.y.toNat + r.height.toNat ≤ 100

def Role.Valid (r : Role) : Prop :=
  blank r.name = false ∧ blank r.monitor = false ∧ r.region.Valid ∧ r.binding.Valid

def System.Valid (s : System) : Prop :=
  blank s.name = false ∧ (s.roles.map Role.name).Nodup ∧ ∀ r ∈ s.roles, r.Valid

/-- The invariants of the model. -/
def Config.Valid (cfg : Config) : Prop :=
  cfg.systems ≠ [] ∧ (cfg.systems.map System.name).Nodup ∧ ∀ s ∈ cfg.systems, s.Valid

theorem Binding.valid (b : Binding) : b.Valid := by
  cases b with
  | sticky app => exact ⟨app.appId_nonblank, app.profile_nonblank⟩
  | cycle candidates h => exact ⟨h, fun app _ => ⟨app.appId_nonblank, app.profile_nonblank⟩⟩
  | pattern appId titleRegex ha ht => exact ⟨ha, ht⟩
  | flex => trivial

theorem Role.valid (r : Role) : r.Valid :=
  ⟨r.name_nonblank, r.monitor_nonblank,
    ⟨r.region.width_pos, r.region.height_pos, r.region.right_le, r.region.bottom_le⟩,
    r.binding.valid⟩

theorem Config.valid (cfg : Config) : cfg.Valid :=
  ⟨cfg.systems_ne_nil, cfg.systems_nodup, fun s _ =>
    ⟨s.name_nonblank, s.roles_nodup, fun r _ => r.valid⟩⟩

/-- Where the children of a system are all roles, they are its roles. -/
theorem filter_roles {t : String → Option (String × Region)} {nodes : KdlDocument}
    {roles : List Role}
    (h : List.Forall₂ (fun n role => n.name = "role" ∧ ReadsRole t n role) nodes roles) :
    nodes.filter (fun n => decide (n.name = "role")) = nodes := by
  induction h with
  | nil => rfl
  | cons hn _ ih => rw [List.filter_cons_of_pos (by simp [hn.1]), ih]

theorem exists_of_forall₂ {α β : Type} {R : α → β → Prop} {as : List α} {bs : List β}
    (h : List.Forall₂ R as bs) {b : β} (hb : b ∈ bs) : ∃ a ∈ as, R a b := by
  induction h with
  | nil => cases hb
  | cons hab _ ih =>
    rcases List.mem_cons.mp hb with rfl | hb
    · exact ⟨_, List.mem_cons_self, hab⟩
    · obtain ⟨a, ha, hab⟩ := ih hb
      exact ⟨a, List.mem_cons_of_mem _ ha, hab⟩

theorem readsRole_geometry {doc : KdlDocument} {defs : Regions} {node : KdlNode} {role : Role}
    (hreads : List.Forall₂ ReadsRegion (regionNodes doc) defs)
    (hnodup : (defs.map Prod.fst).Nodup) (h : ReadsRole defs.get node role) :
    GeometryOf doc node role := by
  rcases h.geometry with ⟨reference, href, -, -, hget⟩ | hown
  · obtain ⟨d, hd, hdef⟩ := exists_of_forall₂ hreads ((Regions.get_eq_some hnodup).mp hget)
    exact .inl ⟨reference, href, d, hd, hdef⟩
  · exact .inr hown

/-- Definitions of different names are different names. -/
theorem regions_pairwise {nodes : KdlDocument} {defs : Regions}
    (hreads : List.Forall₂ ReadsRegion nodes defs) (hnodup : (defs.map Prod.fst).Nodup) :
    nodes.Pairwise fun d d' => ∀ name, HasArg d name → ¬ HasArg d' name := by
  induction hreads with
  | nil => exact .nil
  | @cons d def₁ nodes defs hd hreads ih =>
    rw [List.map_cons, List.nodup_cons] at hnodup
    refine .cons ?_ (ih hnodup.2)
    intro d' hd' name hname hname'
    obtain ⟨def₂, hmem, hdef⟩ := exists_of_forall₂ hreads.flip hd'
    refine hnodup.1 (List.mem_map.mpr ⟨def₂, hmem, ?_⟩)
    rw [hdef.1.unique hname', hd.1.unique hname]

theorem TwoPass.resolved {doc : KdlDocument} {cfg : Config} (h : TwoPass doc cfg) :
    Resolved doc cfg := by
  obtain ⟨-, defs, hreads, hnodup, hsystems⟩ := h
  refine ⟨hsystems.imp fun node s hs => ⟨hs.name, ?_⟩, regions_pairwise hreads hnodup⟩
  rw [filter_roles hs.roles]
  exact hs.roles.imp fun n r hr => ⟨hr.2.name, readsRole_geometry hreads hnodup hr.2⟩

/-- **Resolution.** A document that is accepted becomes its systems and roles, with the geometry
that they have or name, in a valid layout; and no document gets as far as a duplicate system. -/
theorem parseDocument_resolves (doc : KdlDocument) :
    (∀ cfg, parseDocument doc = .ok cfg → Resolved doc cfg ∧ cfg.Valid) ∧
      ∀ st, collect doc = .ok st →
        ∀ name, Config.new st.systems ≠ .error (.duplicateSystem name) := by
  constructor
  · intro cfg h
    exact ⟨(parseDocument_iff.mp h).1.resolved, cfg.valid⟩
  · intro st h
    obtain ⟨defs, ss, hc, rfl⟩ := collect_eq_ok.mp h
    exact Config.new_ne_duplicateSystem (by simpa [Collected.add] using hc.names_nodup)

/-- A region definition. -/
def fullRegion : KdlNode :=
  .mk "region" [⟨none, .string "full"⟩]
    [.mk "monitor" [⟨none, .string "DP-1"⟩] [] ⟨16, 14⟩,
      .mk "rect" [⟨none, .integer 0⟩, ⟨none, .integer 0⟩, ⟨none, .integer 100⟩,
        ⟨none, .integer 100⟩] [] ⟨32, 16⟩]
    ⟨0, 50⟩

/-- A system of one role, which names the region. -/
def codeSystem : KdlNode :=
  .mk "system" [⟨none, .string "code"⟩]
    [.mk "role" [⟨none, .string "editor"⟩, ⟨some "region", .string "full"⟩] [] ⟨66, 27⟩]
    ⟨51, 44⟩

theorem accepted_of_isSome {doc : KdlDocument}
    (h : (parseDocument doc).toOption.isSome = true) : ∃ cfg, parseDocument doc = .ok cfg := by
  cases hd : parseDocument doc with
  | ok cfg => exact ⟨cfg, rfl⟩
  | error e => simp [hd, Except.toOption] at h

theorem full_code_accepted : ∃ cfg, parseDocument [fullRegion, codeSystem] = .ok cfg :=
  accepted_of_isSome (by decide)

theorem parseDocument_resolves_full_code :
    ∃ cfg, parseDocument [fullRegion, codeSystem] = .ok cfg ∧
      Resolved [fullRegion, codeSystem] cfg ∧ cfg.Valid := by
  obtain ⟨cfg, h⟩ := full_code_accepted
  exact ⟨cfg, h, (parseDocument_resolves [fullRegion, codeSystem]).1 cfg h⟩

/-! ## Moving the definitions -/

/-- The documents with the same nodes and the same order of the systems. -/
def Rearranged (doc doc' : KdlDocument) : Prop :=
  doc.Perm doc' ∧ systemNodes doc = systemNodes doc'

/-- Two arrangements of a document give the same layout, or none, exactly if the regions come before
their uses in both or in neither; or if the two passes accept neither of them. -/
theorem rearranged_iff {doc doc' : KdlDocument} (h : Rearranged doc doc') :
    (∀ cfg, parseDocument doc = .ok cfg ↔ parseDocument doc' = .ok cfg) ↔
      (∀ cfg, ¬ TwoPass doc cfg) ∨ (Visible doc ↔ Visible doc') := by
  have htwo : ∀ cfg, TwoPass doc cfg ↔ TwoPass doc' cfg := fun cfg =>
    ⟨TwoPass.of_perm h.1 h.2, TwoPass.of_perm h.1.symm h.2.symm⟩
  simp only [parseDocument_iff, ← htwo, and_congr_right_iff]
  constructor
  · intro hall
    by_cases hnone : ∀ cfg, ¬ TwoPass doc cfg
    · exact .inl hnone
    · obtain ⟨cfg, hcfg⟩ := not_forall_not.mp hnone
      exact .inr (hall cfg hcfg)
  · rintro (hnone | hvis) cfg hcfg
    · exact absurd hcfg (hnone cfg)
    · exact hvis

/-- A region that no role names. -/
def spareRegion : KdlNode :=
  .mk "region" [⟨none, .string "spare"⟩] fullRegion.children ⟨95, 51⟩

theorem visible_of_isSome {doc : KdlDocument} (h : (parseDocument doc).toOption.isSome = true) :
    Visible doc := by
  obtain ⟨cfg, hcfg⟩ := accepted_of_isSome h
  exact (parseDocument_iff.mp hcfg).2

theorem rearranged_iff_spare :
    ∃ cfg, parseDocument [fullRegion, spareRegion, codeSystem] = .ok cfg ∧
      parseDocument [fullRegion, codeSystem, spareRegion] = .ok cfg := by
  have hmove : Rearranged [fullRegion, spareRegion, codeSystem]
      [fullRegion, codeSystem, spareRegion] := ⟨.cons _ (.swap _ _ _), rfl⟩
  have hvis : Visible [fullRegion, spareRegion, codeSystem] := visible_of_isSome (by decide)
  have hvis' : Visible [fullRegion, codeSystem, spareRegion] := visible_of_isSome (by decide)
  have hsome : (parseDocument [fullRegion, spareRegion, codeSystem]).toOption.isSome = true := by
    decide
  obtain ⟨cfg, hcfg⟩ := accepted_of_isSome hsome
  exact ⟨cfg, hcfg, ((rearranged_iff hmove).mpr (.inr (iff_of_true hvis hvis')) cfg).mp hcfg⟩

theorem rearranged_swap : Rearranged [fullRegion, codeSystem] [codeSystem, fullRegion] :=
  ⟨List.Perm.swap _ _ _, rfl⟩

/-- With the region behind the system that names it, the same document is rejected. -/
theorem moved_region_is_unknown :
    ¬ ∀ doc doc', Rearranged doc doc' →
      ∀ cfg, parseDocument doc = .ok cfg ↔ parseDocument doc' = .ok cfg := by
  intro hall
  obtain ⟨cfg, h⟩ := full_code_accepted
  have hmoved : parseDocument [codeSystem, fullRegion] = .error
      (.atSpan "role `editor` references unknown region `full`" ⟨66, 27⟩) := by decide
  cases hmoved.symm.trans ((hall _ _ rearranged_swap cfg).mp h)

end Halmasuit.Kushuh
