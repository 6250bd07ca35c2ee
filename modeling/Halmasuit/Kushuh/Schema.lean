import Halmasuit.Kushuh.Resolve

/-!
# The schema

The grammar of the documents, node by node, as the module comment of `parse.rs` has it: `Denotes` is
between a document and the layout that it is written for, and leaves nothing in the document that
the layout does not show. The parser looks its nodes and entries up by name and passes over the
rest. `Exact` is that a node has no rest; `denotes_iff` is that among the documents that are
accepted, those in the grammar are the ones whose nodes are all exact.
-/

namespace Halmasuit.Kushuh

open Lib Lib.Kdl

/-! ## The grammar -/

/-- A node has these arguments, and of these properties the ones with a value; and no others. A
property that is repeated has its rightmost value. -/
structure Says (node : KdlNode) (args : List KdlValue) (props : List (String × Option String)) :
    Prop where
  args_eq : node.args = args
  keys : ∀ e ∈ node.entries, ∀ key ∈ e.name, key ∈ props.map Prod.fst
  props_eq : ∀ p ∈ props, node.prop p.1 = p.2.map KdlValue.string

/-- `monitor "M"`. -/
def IsMonitor (node : KdlNode) (monitor : String) : Prop :=
  node.name = "monitor" ∧ Says node [.string monitor] [] ∧ node.children = []

/-- `rect x y w h`. -/
def IsRect (node : KdlNode) (r : Region) : Prop :=
  node.name = "rect" ∧
    Says node [.integer r.x.toNat, .integer r.y.toNat, .integer r.width.toNat,
      .integer r.height.toNat] [] ∧
    node.children = []

/-- `region "name" { monitor "M"; rect x y w h }`. -/
def IsRegionDef (node : KdlNode) (name monitor : String) (r : Region) : Prop :=
  node.name = "region" ∧ Says node [.string name] [] ∧
    ∃ m n, node.children.Perm [m, n] ∧ IsMonitor m monitor ∧ IsRect n r

/-- `sticky "app" [profile="…"]`, and `app` likewise. -/
def IsApp (kind : String) (node : KdlNode) (app : AppRef) : Prop :=
  node.name = kind ∧ Says node [.string app.appId] [("profile", app.profile)] ∧ node.children = []

/-- The binding node of a role, or none for flex. -/
def IsBinding (nodes : List KdlNode) : Binding → Prop
  | .sticky app => ∃ node, nodes = [node] ∧ IsApp "sticky" node app
  | .cycle candidates _ => ∃ node, nodes = [node] ∧ node.name = "cycle" ∧ Says node [] [] ∧
      List.Forall₂ (IsApp "app") node.children candidates
  | .pattern appId titleRegex _ _ => ∃ node, nodes = [node] ∧ node.name = "pattern" ∧
      Says node [] [("app", some appId), ("title", titleRegex)] ∧ node.children = []
  | .flex => nodes = []

/-- The geometry of a role: none of its own where it names a region, and a monitor and a rectangle
where it does not. -/
def IsGeometry (named : String → String → Region → Prop) (nodes : List KdlNode)
    (reference : Option String) (monitor : String) (r : Region) : Prop :=
  match reference with
  | some name => nodes = [] ∧ named name monitor r
  | none => ∃ m n, nodes = [m, n] ∧ IsMonitor m monitor ∧ IsRect n r

/-- `role "name" [region="ref"] { [monitor; rect] <binding> }`. -/
def IsRole (named : String → String → Region → Prop) (node : KdlNode) (role : Role) : Prop :=
  node.name = "role" ∧ ∃ reference geometry binding,
    Says node [.string role.name] [("region", reference)] ∧
    node.children.Perm (geometry ++ binding) ∧
    IsGeometry named geometry reference role.monitor role.region ∧
    IsBinding binding role.binding

/-- `system "name" { role … }`. -/
def IsSystem (named : String → String → Region → Prop) (node : KdlNode) (s : System) : Prop :=
  node.name = "system" ∧ Says node [.string s.name] [] ∧
    List.Forall₂ (IsRole named) node.children s.roles

/-- The document has a definition of the region. -/
def Named (doc : KdlDocument) (name monitor : String) (r : Region) : Prop :=
  ∃ node ∈ doc, IsRegionDef node name monitor r

/-- The document is in the grammar, and all of it is in the layout: a region definition in the roles
that name it, and every other node in the system or the role that it stands for or in. -/
structure Denotes (doc : KdlDocument) (cfg : Config) : Prop where
  known : Known doc
  regions : ∀ node ∈ regionNodes doc, ∃ name monitor r, IsRegionDef node name monitor r
  systems : List.Forall₂ (IsSystem (Named doc)) (systemNodes doc) cfg.systems

/-! ## Nodes without a rest -/

/-- What the parser looks up in a node: how many arguments, which properties, the children of which
it takes the first of a name, and those of which it takes all. -/
structure Shape where
  args : Nat
  props : List String
  once : List String
  many : List String

/-- The lookups, by the name of the node. -/
def shapes : List (String × Shape) :=
  [("region", ⟨1, [], ["monitor", "rect"], []⟩),
    ("system", ⟨1, [], [], ["role"]⟩),
    ("role", ⟨1, ["region"], ["monitor", "rect"] ++ bindingKinds, []⟩),
    ("monitor", ⟨1, [], [], []⟩),
    ("rect", ⟨4, [], [], []⟩),
    ("sticky", ⟨1, ["profile"], [], []⟩),
    ("app", ⟨1, ["profile"], [], []⟩),
    ("cycle", ⟨0, [], [], ["app"]⟩),
    ("pattern", ⟨0, ["app", "title"], [], []⟩)]

def shapeOf (name : String) : Shape := (shapes.lookup name).getD ⟨0, [], [], []⟩

/-- There is nothing in the node that is not looked up, and a property that is looked up is a
string. -/
structure Exact (shape : Shape) (node : KdlNode) : Prop where
  args : node.args.length ≤ shape.args
  keys : ∀ e ∈ node.entries, ∀ key ∈ e.name, key ∈ shape.props
  strings : ∀ key ∈ shape.props, ∀ v ∈ node.prop key, v.asString.isSome = true
  children : ∀ c ∈ node.children, c.name ∈ shape.once ∨ c.name ∈ shape.many
  once : ∀ name ∈ shape.once, (node.children.map KdlNode.name).count name ≤ 1

/-- The node is exact, and so are the nodes in it. -/
inductive Plain : KdlNode → Prop
  | mk {node : KdlNode} (exact : Exact (shapeOf node.name) node)
      (children : ∀ c ∈ node.children, Plain c) : Plain node

instance (shape : Shape) (node : KdlNode) : Decidable (Exact shape node) :=
  decidable_of_iff
    (node.args.length ≤ shape.args ∧
      (∀ e ∈ node.entries, ∀ key ∈ e.name, key ∈ shape.props) ∧
      (∀ key ∈ shape.props, ∀ v ∈ node.prop key, v.asString.isSome = true) ∧
      (∀ c ∈ node.children, c.name ∈ shape.once ∨ c.name ∈ shape.many) ∧
      ∀ name ∈ shape.once, (node.children.map KdlNode.name).count name ≤ 1)
    ⟨fun h => ⟨h.1, h.2.1, h.2.2.1, h.2.2.2.1, h.2.2.2.2⟩,
      fun h => ⟨h.args, h.keys, h.strings, h.children, h.once⟩⟩

mutual

/-- Whether a node is plain. -/
def isPlain : KdlNode → Bool
  | .mk name entries children span =>
    decide (Exact (shapeOf name) (.mk name entries children span)) && arePlain children

def arePlain : List KdlNode → Bool
  | [] => true
  | node :: nodes => isPlain node && arePlain nodes

end

mutual

theorem plain_of_isPlain : (node : KdlNode) → isPlain node = true → Plain node
  | .mk name entries children span, h => by
    rw [isPlain, Bool.and_eq_true] at h
    exact .mk (of_decide_eq_true h.1) (plain_of_arePlain children h.2)

theorem plain_of_arePlain : (nodes : List KdlNode) → arePlain nodes = true →
    ∀ node ∈ nodes, Plain node
  | [], _ => by simp
  | node :: nodes, h => by
    rw [arePlain, Bool.and_eq_true] at h
    exact List.forall_mem_cons.mpr ⟨plain_of_isPlain node h.1, plain_of_arePlain nodes h.2⟩

end

/-! ## From the grammar to exact nodes -/

section
variable {node : KdlNode} {kind : String} {args : List KdlValue}
  {props : List (String × Option String)}

/-- The entries of a node of the grammar are those that are looked up. -/
theorem Says.exact {shape : Shape} (h : Says node args props) (hargs : args.length ≤ shape.args)
    (hprops : props.map Prod.fst = shape.props)
    (hchildren : ∀ c ∈ node.children, c.name ∈ shape.once ∨ c.name ∈ shape.many)
    (honce : ∀ name ∈ shape.once, (node.children.map KdlNode.name).count name ≤ 1) :
    Exact shape node := by
  refine ⟨h.args_eq ▸ hargs, fun e he key hkey => hprops ▸ h.keys e he key hkey, ?_, hchildren,
    honce⟩
  intro key hkey v hv
  rw [← hprops] at hkey
  obtain ⟨p, hp, rfl⟩ := List.mem_map.mp hkey
  rw [h.props_eq p hp, Option.mem_def, Option.map_eq_some_iff] at hv
  obtain ⟨s, -, rfl⟩ := hv
  rfl

theorem Says.plain_leaf (h : Says node args props) (hname : node.name = kind)
    (hnil : node.children = []) (hargs : args.length ≤ (shapeOf kind).args)
    (hprops : props.map Prod.fst = (shapeOf kind).props) : Plain node := by
  subst hname
  exact .mk (h.exact hargs hprops (by simp [hnil]) (by simp [hnil])) (by simp [hnil])

/-- Children that are found by name are there once each. -/
theorem Says.plain_once {nodes : List KdlNode} (h : Says node args props) (hname : node.name = kind)
    (hargs : args.length ≤ (shapeOf kind).args)
    (hprops : props.map Prod.fst = (shapeOf kind).props) (hperm : node.children.Perm nodes)
    (hnames : (nodes.map KdlNode.name).Sublist (shapeOf kind).once)
    (hnodup : (shapeOf kind).once.Nodup) (hplain : ∀ c ∈ nodes, Plain c) : Plain node := by
  subst hname
  have hmem : ∀ c ∈ node.children, c.name ∈ (shapeOf node.name).once := fun c hc =>
    hnames.subset (List.mem_map_of_mem (hperm.mem_iff.mp hc))
  refine .mk (h.exact hargs hprops (fun c hc => .inl (hmem c hc)) ?_)
    fun c hc => hplain c (hperm.mem_iff.mp hc)
  intro name _
  rw [(hperm.map KdlNode.name).count_eq]
  exact List.nodup_iff_count_le_one.mp (hnames.nodup hnodup) name

/-- Children that are all read have the one name. -/
theorem Says.plain_many {α : Type} {R : KdlNode → α → Prop} {as : List α} (h : Says node args props)
    (hname : node.name = kind) (hargs : args.length ≤ (shapeOf kind).args)
    (hprops : props.map Prod.fst = (shapeOf kind).props) (honce : (shapeOf kind).once = [])
    (hall : List.Forall₂ R node.children as)
    (hchild : ∀ c a, R c a → c.name ∈ (shapeOf kind).many ∧ Plain c) : Plain node := by
  subst hname
  have hchildren : ∀ c ∈ node.children, c.name ∈ (shapeOf node.name).many ∧ Plain c := by
    intro c hc
    obtain ⟨a, -, ha⟩ := exists_of_forall₂ hall.flip hc
    exact hchild c a ha
  exact .mk (h.exact hargs hprops (fun c hc => .inr (hchildren c hc).1) (by simp [honce]))
    fun c hc => (hchildren c hc).2

end

theorem IsMonitor.plain {node : KdlNode} {monitor : String} (h : IsMonitor node monitor) :
    Plain node :=
  h.2.1.plain_leaf h.1 h.2.2 (Nat.le_refl 1) rfl

theorem IsRect.plain {node : KdlNode} {r : Region} (h : IsRect node r) : Plain node :=
  h.2.1.plain_leaf h.1 h.2.2 (Nat.le_refl 4) rfl

theorem IsApp.plain {kind : String} (hkind : kind = "sticky" ∨ kind = "app") {node : KdlNode}
    {app : AppRef} (h : IsApp kind node app) : Plain node := by
  obtain ⟨hname, hsaid, hnil⟩ := h
  rcases hkind with rfl | rfl
  · exact hsaid.plain_leaf hname hnil (Nat.le_refl 1) rfl
  · exact hsaid.plain_leaf hname hnil (Nat.le_refl 1) rfl

/-- A monitor and a rectangle. -/
theorem plain_geometry {m n : KdlNode} {monitor : String} {r : Region} (hm : IsMonitor m monitor)
    (hn : IsRect n r) : ∀ c ∈ [m, n], Plain c := by
  simp only [List.mem_cons, List.not_mem_nil, or_false, forall_eq_or_imp, forall_eq]
  exact ⟨hm.plain, hn.plain⟩

theorem IsRegionDef.plain {node : KdlNode} {name monitor : String} {r : Region}
    (h : IsRegionDef node name monitor r) : Plain node := by
  obtain ⟨hname, hsaid, m, n, hperm, hm, hn⟩ := h
  refine hsaid.plain_once hname (Nat.le_refl 1) rfl hperm ?_ (by decide) (plain_geometry hm hn)
  rw [List.map_cons, List.map_cons, hm.1, hn.1]
  exact .refl _

theorem IsGeometry.names {named : String → String → Region → Prop} {nodes : List KdlNode}
    {reference : Option String} {monitor : String} {r : Region}
    (h : IsGeometry named nodes reference monitor r) :
    (nodes.map KdlNode.name).Sublist ["monitor", "rect"] ∧ ∀ c ∈ nodes, Plain c := by
  cases reference with
  | some name =>
    obtain ⟨rfl, -⟩ := h
    exact ⟨List.nil_sublist _, by simp⟩
  | none =>
    obtain ⟨m, n, rfl, hm, hn⟩ := h
    refine ⟨?_, plain_geometry hm hn⟩
    rw [List.map_cons, List.map_cons, hm.1, hn.1]
    exact .refl _

theorem IsBinding.names {nodes : List KdlNode} {b : Binding} (h : IsBinding nodes b) :
    (nodes.map KdlNode.name).Sublist bindingKinds ∧ ∀ c ∈ nodes, Plain c := by
  have hone : ∀ {node : KdlNode} {kind : String}, node.name = kind → kind ∈ bindingKinds →
      Plain node →
      ([node].map KdlNode.name).Sublist bindingKinds ∧ ∀ c ∈ [node], Plain c := by
    rintro node _ rfl hkind hplain
    exact ⟨List.singleton_sublist.mpr hkind, by simpa using hplain⟩
  cases b with
  | sticky app =>
    obtain ⟨node, rfl, happ⟩ := h
    exact hone happ.1 (by decide) (happ.plain (.inl rfl))
  | cycle candidates hlen =>
    obtain ⟨node, rfl, hname, hsaid, happs⟩ := h
    refine hone hname (by decide) (hsaid.plain_many hname (Nat.le_refl 0) rfl rfl happs ?_)
    intro c app happ
    exact ⟨List.mem_singleton.mpr happ.1, happ.plain (.inr rfl)⟩
  | pattern appId titleRegex ha ht =>
    obtain ⟨node, rfl, hname, hsaid, hnil⟩ := h
    exact hone hname (by decide) (hsaid.plain_leaf hname hnil (Nat.le_refl 0) rfl)
  | flex =>
    obtain rfl := h
    exact ⟨List.nil_sublist _, by simp⟩

section
variable {named : String → String → Region → Prop} {node : KdlNode}

theorem IsRole.plain {role : Role} (h : IsRole named node role) : Plain node := by
  obtain ⟨hname, reference, geometry, binding, hsaid, hperm, hgeometry, hbinding⟩ := h
  refine hsaid.plain_once hname (Nat.le_refl 1) rfl hperm ?_ (by decide) ?_
  · rw [List.map_append]
    exact hgeometry.names.1.append hbinding.names.1
  · intro c hc
    exact (List.mem_append.mp hc).elim (hgeometry.names.2 c) (hbinding.names.2 c)

theorem IsSystem.plain {s : System} (h : IsSystem named node s) : Plain node := by
  obtain ⟨hname, hsaid, hroles⟩ := h
  refine hsaid.plain_many hname (Nat.le_refl 1) rfl rfl hroles ?_
  intro c role hrole
  exact ⟨List.mem_singleton.mpr hrole.1, hrole.plain⟩

end

theorem Denotes.plain {doc : KdlDocument} {cfg : Config} (h : Denotes doc cfg) :
    ∀ node ∈ doc, Plain node := by
  intro node hnode
  rcases h.known node hnode with hr | hs
  · obtain ⟨name, monitor, r, hdef⟩ := h.regions node (List.mem_filter.mpr ⟨hnode, hr⟩)
    exact hdef.plain
  · obtain ⟨s, -, hsys⟩ :=
      exists_of_forall₂ h.systems.flip (List.mem_filter.mpr ⟨hnode, hs⟩)
    exact IsSystem.plain hsys

/-! ## From exact nodes to the grammar -/

section
variable {node : KdlNode} {kind : String}

theorem Plain.exact (h : Plain node) : Exact (shapeOf node.name) node := by
  cases h with
  | mk exact _ => exact exact

theorem Plain.child (h : Plain node) {c : KdlNode} (hc : c ∈ node.children) : Plain c := by
  cases h with
  | mk _ children => exact children c hc

theorem Plain.exact_kind (h : Plain node) (hname : node.name = kind) :
    Exact (shapeOf kind) node := by
  subst hname
  exact h.exact

/-- The properties that are read are those the node has. -/
theorem Exact.said {shape : Shape} (h : Exact shape node) {args : List KdlValue}
    {props : List (String × Option String)} (hargs : node.args = args)
    (hprops : props.map Prod.fst = shape.props) (hread : ∀ p ∈ props, stringProp node p.1 = p.2) :
    Says node args props := by
  refine ⟨hargs, fun e he key hkey => hprops ▸ h.keys e he key hkey, ?_⟩
  intro p hp
  have hkey : p.1 ∈ shape.props := hprops ▸ List.mem_map_of_mem hp
  rw [← hread p hp, stringProp]
  cases hv : node.prop p.1 with
  | none => rfl
  | some v =>
    obtain ⟨s, hs⟩ := Option.isSome_iff_exists.mp (h.strings p.1 hkey v hv)
    rw [Option.bind_some, hs, KdlValue.asString_eq_some.mp hs]
    rfl

theorem Exact.said_args {shape : Shape} (h : Exact shape node) {args : List KdlValue}
    (hargs : node.args = args) (hprops : shape.props = []) : Says node args [] :=
  h.said hargs hprops.symm (by simp)

/-- Of one argument at most, the first is all. -/
theorem HasArg.args_eq {s : String} (h : HasArg node s) (hlen : node.args.length ≤ 1) :
    node.args = [.string s] := by
  unfold HasArg at h
  cases hargs : node.args with
  | nil => simp [hargs] at h
  | cons v vs =>
    rw [hargs, List.length_cons] at hlen
    rw [hargs, List.head?_cons, Option.some.injEq] at h
    rw [h, List.length_eq_zero_iff.mp (by omega : vs.length = 0)]

theorem Exact.leaf {shape : Shape} (h : Exact shape node) (honce : shape.once = [])
    (hmany : shape.many = []) : node.children = [] := by
  refine List.eq_nil_iff_forall_not_mem.mpr fun c hc => ?_
  have hmem := h.children c hc
  rw [honce, hmany] at hmem
  simp at hmem

/-- The children that are looked up are those the node has. -/
theorem Exact.perm {shape : Shape} (h : Exact shape node) (hmany : shape.many = [])
    (hnodup : shape.once.Nodup) : node.children.Perm (shape.once.filterMap node.child) := by
  have hall : ∀ c ∈ node.children, c.name ∈ shape.once := fun c hc =>
    (h.children c hc).resolve_right (by simp [hmany])
  refine KdlNode.children_perm hnodup hall (List.nodup_iff_count_le_one.mpr fun name => ?_)
  by_cases hname : name ∈ shape.once
  · exact h.once name hname
  · rw [List.count_eq_zero.mpr]
    · exact Nat.zero_le 1
    · intro hmem
      obtain ⟨c, hc, rfl⟩ := List.mem_map.mp hmem
      exact hname (hall c hc)

theorem HasMonitor.isMonitor {monitor : String} (h : HasMonitor node monitor)
    (hplain : Plain node) : ∃ m, node.child "monitor" = some m ∧ IsMonitor m monitor := by
  obtain ⟨m, hchild, harg⟩ := h
  obtain ⟨hm, hname⟩ := KdlNode.child_eq_some hchild
  have hexact := (hplain.child hm).exact_kind hname
  exact ⟨m, hchild, hname, hexact.said_args (harg.args_eq hexact.args) rfl, hexact.leaf rfl rfl⟩

theorem HasRect.isRect {r : Region} (h : HasRect node r) (hplain : Plain node) :
    ∃ n, node.child "rect" = some n ∧ IsRect n r := by
  obtain ⟨n, hchild, hargs⟩ := h
  obtain ⟨hn, hname⟩ := KdlNode.child_eq_some hchild
  have hexact := (hplain.child hn).exact_kind hname
  exact ⟨n, hchild, hname, hexact.said_args hargs rfl, hexact.leaf rfl rfl⟩

theorem ReadsApp.isApp {app : AppRef} (h : ReadsApp node app) (hplain : Plain node)
    (hname : node.name = kind) (hkind : kind = "sticky" ∨ kind = "app") : IsApp kind node app := by
  have hread : ∀ p ∈ [("profile", app.profile)], stringProp node p.1 = p.2 := by
    simpa using h.2
  have hexact := hplain.exact_kind hname
  rcases hkind with rfl | rfl
  · exact ⟨hname, hexact.said (h.1.args_eq hexact.args) rfl hread, hexact.leaf rfl rfl⟩
  · exact ⟨hname, hexact.said (h.1.args_eq hexact.args) rfl hread, hexact.leaf rfl rfl⟩

theorem ReadsRegion.isRegionDef {d : String × String × Region} (h : ReadsRegion node d)
    (hplain : Plain node) (hname : node.name = "region") : IsRegionDef node d.1 d.2.1 d.2.2 := by
  obtain ⟨harg, hmonitor, hrect⟩ := h
  obtain ⟨m, hchildM, hm⟩ := hmonitor.isMonitor hplain
  obtain ⟨n, hchildN, hn⟩ := hrect.isRect hplain
  have hexact := hplain.exact_kind hname
  have hperm : node.children.Perm (["monitor", "rect"].filterMap node.child) :=
    hexact.perm rfl (by decide)
  refine ⟨hname, hexact.said_args (harg.args_eq hexact.args) rfl, m, n, ?_, hm, hn⟩
  simpa [List.filterMap_cons, hchildM, hchildN] using hperm

/-- The binding of a role is what its binding nodes say. -/
theorem ReadsBinding.isBinding {b : Binding} (h : ReadsBinding node b) (hplain : Plain node) :
    IsBinding (bindingKinds.filterMap node.child) b := by
  have hnone : ∀ c : KdlNode, c.args.length ≤ 0 → c.args = [] := by
    intro c hc
    exact List.length_eq_zero_iff.mp (Nat.le_zero.mp hc)
  cases b with
  | sticky app =>
    obtain ⟨c, hs, hc, hp, hreads⟩ := h
    obtain ⟨hmem, hname⟩ := KdlNode.child_eq_some hs
    refine ⟨c, by simp [bindingKinds, hs, hc, hp], ?_⟩
    exact hreads.isApp (hplain.child hmem) hname (.inl rfl)
  | cycle candidates hlen =>
    obtain ⟨c, hs, hc, hp, hreads⟩ := h
    obtain ⟨hmem, hname⟩ := KdlNode.child_eq_some hc
    have hplain := hplain.child hmem
    have hexact := hplain.exact_kind hname
    refine ⟨c, by simp [bindingKinds, hs, hc, hp], hname,
      hexact.said_args (hnone c hexact.args) rfl, ?_⟩
    have hall := (List.forall₂_and_left _ _).mpr ⟨fun n hn => hplain.child hn, hreads⟩
    exact hall.imp fun n app h => h.2.2.isApp h.1 h.2.1 (.inr rfl)
  | pattern appId titleRegex ha ht =>
    obtain ⟨c, hs, hc, hp, happ, htitle⟩ := h
    obtain ⟨hmem, hname⟩ := KdlNode.child_eq_some hp
    have hexact := (hplain.child hmem).exact_kind hname
    refine ⟨c, by simp [bindingKinds, hs, hc, hp], hname,
      hexact.said (hnone c hexact.args) rfl ?_, hexact.leaf rfl rfl⟩
    simpa using ⟨happ, htitle⟩
  | flex =>
    obtain ⟨hs, hc, hp⟩ := h
    simp [IsBinding, bindingKinds, hs, hc, hp]

end

section
variable {table : String → Option (String × Region)} {named : String → String → Region → Prop}
  {node : KdlNode}

theorem ReadsRole.isRole {role : Role} (h : ReadsRole table node role)
    (hnamed : ∀ name m r, table name = some (m, r) → named name m r) (hplain : Plain node)
    (hname : node.name = "role") : IsRole named node role := by
  have hexact := hplain.exact_kind hname
  have hperm : node.children.Perm
      ((["monitor", "rect"] ++ bindingKinds).filterMap node.child) := hexact.perm rfl (by decide)
  rw [List.filterMap_append] at hperm
  have hsaid : Says node [.string role.name] [("region", stringProp node "region")] :=
    hexact.said (h.name.args_eq hexact.args) rfl (by simp)
  refine ⟨hname, stringProp node "region", _, _, hsaid, hperm, ?_, h.binding.isBinding hplain⟩
  rcases h.geometry with ⟨reference, href, hm, hr, hget⟩ | ⟨href, hm, hr⟩
  · rw [href]
    exact ⟨by simp [hm, hr], hnamed _ _ _ hget⟩
  · obtain ⟨m, hchildM, hm⟩ := hm.isMonitor hplain
    obtain ⟨n, hchildN, hn⟩ := hr.isRect hplain
    rw [href]
    exact ⟨m, n, by simp [hchildM, hchildN], hm, hn⟩

theorem ReadsSystem.isSystem {s : System} (h : ReadsSystem table node s)
    (hnamed : ∀ name m r, table name = some (m, r) → named name m r) (hplain : Plain node)
    (hname : node.name = "system") : IsSystem named node s := by
  have hexact := hplain.exact_kind hname
  refine ⟨hname, hexact.said_args (h.name.args_eq hexact.args) rfl, ?_⟩
  have hall := (List.forall₂_and_left _ _).mpr ⟨fun n hn => hplain.child hn, h.roles⟩
  exact hall.imp fun n role h => h.2.2.isRole hnamed h.1 h.2.1

end

/-- Read without anything to pass over, a document is in the grammar. -/
theorem TwoPass.denotes {doc : KdlDocument} {cfg : Config} (h : TwoPass doc cfg)
    (hplain : ∀ node ∈ doc, Plain node) : Denotes doc cfg := by
  obtain ⟨hknown, defs, hreads, hnodup, hsystems⟩ := h
  have hdef : ∀ node ∈ regionNodes doc, ∀ d, ReadsRegion node d →
      IsRegionDef node d.1 d.2.1 d.2.2 := by
    intro node hnode d hd
    obtain ⟨hmem, hname⟩ := List.mem_filter.mp hnode
    exact hd.isRegionDef (hplain node hmem) (of_decide_eq_true hname)
  have hnamed : ∀ name m r, Regions.get defs name = some (m, r) → Named doc name m r := by
    intro name m r hget
    obtain ⟨node, hnode, hd⟩ := exists_of_forall₂ hreads ((Regions.get_eq_some hnodup).mp hget)
    exact ⟨node, (List.mem_filter.mp hnode).1, hdef node hnode _ hd⟩
  refine ⟨hknown, fun node hnode => ?_, ?_⟩
  · obtain ⟨d, -, hd⟩ := exists_of_forall₂ hreads.flip hnode
    exact ⟨d.1, d.2.1, d.2.2, hdef node hnode d hd⟩
  · have hall := (List.forall₂_and_left _ _).mpr
      ⟨fun node hnode => List.mem_filter.mp hnode, hsystems⟩
    exact hall.imp fun node s h =>
      h.2.isSystem hnamed (hplain node h.1.1) (of_decide_eq_true h.1.2)

/-! ## What is passed over -/

/-- **The schema.** Of the documents that are accepted, those in the grammar are those in which every
node is exact. -/
theorem denotes_iff {doc : KdlDocument} {cfg : Config} (h : parseDocument doc = .ok cfg) :
    Denotes doc cfg ↔ ∀ node ∈ doc, Plain node :=
  ⟨Denotes.plain, (parseDocument_iff.mp h).1.denotes⟩

theorem denotes_iff_full_code :
    ∃ cfg, parseDocument [fullRegion, codeSystem] = .ok cfg ∧
      Denotes [fullRegion, codeSystem] cfg := by
  obtain ⟨cfg, h⟩ := full_code_accepted
  exact ⟨cfg, h, (denotes_iff h).mpr (plain_of_arePlain _ (by decide))⟩

/-- A system of one role, with a second binding of the first one's kind. -/
def twiceSystem : KdlNode :=
  .mk "system" [⟨none, .string "code"⟩]
    [.mk "role" [⟨none, .string "editor"⟩]
      (fullRegion.children ++ [.mk "sticky" [⟨none, .string "kitty"⟩] [] ⟨86, 14⟩,
        .mk "sticky" [⟨none, .string "foot"⟩] [] ⟨102, 13⟩])
      ⟨16, 101⟩]
    ⟨0, 119⟩

/-- The document is accepted, and a role has one binding. -/
theorem second_sticky_is_dropped :
    ¬ ∀ doc cfg, parseDocument doc = .ok cfg → Denotes doc cfg := by
  intro hall
  have hsome : (parseDocument [twiceSystem]).toOption.isSome = true := by decide
  obtain ⟨cfg, h⟩ := accepted_of_isSome hsome
  have hplain := (hall _ cfg h).plain twiceSystem List.mem_cons_self
  have hrole := (hplain.child List.mem_cons_self).exact
  exact absurd (hrole.once "sticky" (by decide)) (by decide)

end Halmasuit.Kushuh
