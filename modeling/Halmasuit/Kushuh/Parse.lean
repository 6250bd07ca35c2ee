import Mathlib.Data.List.Forall2
import Halmasuit.Kushuh.Model
import Halmasuit.Lib.Kdl

/-!
# From a document to a layout

Model of `kushuh/src/config/parse.rs` from the tree that the `kdl` crate gives: the lookups in a
node, the readers of the kinds of nodes, and the loop over the top level. The region table is a list
of its entries, of which no two have the same name.

For each reader that is used there is one lemma that says when it succeeds and with what
(`parseRole_eq_ok`, `parseSystem_eq_ok` and so on); what is proved of the parser rests on these.
-/

namespace Halmasuit.Kushuh

open Lib Lib.Kdl

/-- `ParseError`. -/
structure ParseError where
  message : String
  span : Option Span
  deriving DecidableEq

/-- `ParseError::at`. -/
def ParseError.atSpan (message : String) (span : Span) : ParseError := ⟨message, some span⟩

/-- `ParseError::spanless`. -/
def ParseError.spanless (message : String) : ParseError := ⟨message, none⟩

/-- The named regions, with their monitors. -/
abbrev Regions := List (String × String × Region)

/-- `HashMap::get`. -/
def Regions.get (regions : Regions) (name : String) : Option (String × Region) :=
  regions.lookup name

/-! ## Lookups -/

/-- `first_string_arg`. -/
def firstStringArg (node : KdlNode) (what : String) : Except ParseError String :=
  match (node.entries.find? fun e => e.name.isNone).bind fun e => e.value.asString with
  | some s => .ok s
  | none => .error (.atSpan ("`" ++ node.name ++ "` needs a " ++ what) node.span)

/-- `string_prop`. -/
def stringProp (node : KdlNode) (key : String) : Option String :=
  (node.prop key).bind KdlValue.asString

/-! ## Geometry -/

/-- `parse_monitor`. -/
def parseMonitor (parent : KdlNode) : Except ParseError String :=
  match parent.child "monitor" with
  | none => .error (.atSpan ("`" ++ parent.name ++ "` needs a `monitor`") parent.span)
  | some node => firstStringArg node "monitor name"

/-- `u8::try_from`. -/
def u8TryFrom (n : Int) : Option UInt8 :=
  if 0 ≤ n ∧ n ≤ 255 then some (UInt8.ofNat n.toNat) else none

/-- `coord`. -/
def coord (value : KdlValue) (node : KdlNode) : Except ParseError UInt8 :=
  match value.asInteger with
  | none => .error (.atSpan "`rect` coordinates must be integers" node.span)
  | some n =>
    match (u8TryFrom n).filter fun n => decide (n ≤ 100) with
    | some c => .ok c
    | none =>
      .error (.atSpan ("`rect` coordinate " ++ toString n ++ " is out of 0..=100") node.span)

/-- `parse_rect`. -/
def parseRect (parent : KdlNode) : Except ParseError Region :=
  match parent.child "rect" with
  | none => .error (.atSpan ("`" ++ parent.name ++ "` needs a `rect x y w h`") parent.span)
  | some node =>
    match node.args with
    | [x, y, w, h] => do
      let x ← coord x node
      let y ← coord y node
      let w ← coord w node
      let h ← coord h node
      (Region.new x y w h).mapError fun e => .atSpan e.display node.span
    | args =>
      .error (.atSpan ("`rect` needs exactly 4 numbers (x y w h), got " ++ toString args.length)
        node.span)

/-- `parse_region_def`. -/
def parseRegionDef (node : KdlNode) : Except ParseError (String × String × Region) := do
  let name ← firstStringArg node "name"
  let monitor ← parseMonitor node
  let region ← parseRect node
  return (name, monitor, region)

/-! ## Bindings -/

/-- `parse_app`. -/
def parseApp (node : KdlNode) : Except ParseError AppRef := do
  let appId ← firstStringArg node "app id"
  (AppRef.new appId (stringProp node "profile")).mapError fun e => .atSpan e.display node.span

/-- A candidate of a `cycle`. -/
def parseCandidate (app : KdlNode) : Except ParseError AppRef :=
  if app.name = "app" then parseApp app
  else
    .error (.atSpan ("unexpected node `" ++ app.name ++ "` in `cycle` (expected `app`)") app.span)

/-- The binding nodes that a role may have. -/
def bindingKinds : List String := ["sticky", "cycle", "pattern"]

/-- `parse_binding`. -/
def parseBinding (role : KdlNode) : Except ParseError Binding :=
  let present := bindingKinds.filter fun kind => (role.child kind).isSome
  if 1 < present.length then
    .error (.atSpan ("role has multiple bindings (" ++ ", ".intercalate present ++
      ") — a role has exactly one") role.span)
  else
    match role.child "sticky" with
    | some node => (parseApp node).map .sticky
    | none =>
      match role.child "cycle" with
      | some node => do
        let candidates ← node.children.mapM parseCandidate
        (Binding.newCycle candidates).mapError fun e => .atSpan e.display node.span
      | none =>
        match role.child "pattern" with
        | some node =>
          match stringProp node "app" with
          | none => .error (.atSpan "`pattern` needs an `app=\"…\"`" node.span)
          | some appId =>
            (Binding.newPattern appId (stringProp node "title")).mapError fun e =>
              .atSpan e.display node.span
        | none => .ok .flex

/-! ## Roles and systems -/

/-- The monitor and the region of a role: those of the region it names, or its own. -/
def parseGeometry (node : KdlNode) (name : String) (regions : Regions) :
    Except ParseError (String × Region) :=
  match stringProp node "region" with
  | some reference =>
    if (node.child "monitor").isSome || (node.child "rect").isSome then
      .error (.atSpan ("role `" ++ name ++
        "` has both a shared `region` and inline geometry — pick one") node.span)
    else
      match regions.get reference with
      | none =>
        .error (.atSpan ("role `" ++ name ++ "` references unknown region `" ++ reference ++ "`")
          node.span)
      | some geometry => .ok geometry
  | none => do
    let monitor ← parseMonitor node
    let region ← parseRect node
    return (monitor, region)

/-- `parse_role`. -/
def parseRole (node : KdlNode) (regions : Regions) : Except ParseError Role := do
  let name ← firstStringArg node "name"
  let (monitor, region) ← parseGeometry node name regions
  let binding ← parseBinding node
  (Role.new name monitor region binding).mapError fun e => .atSpan e.display node.span

/-- A child of a system. -/
def parseMember (name : String) (regions : Regions) (child : KdlNode) : Except ParseError Role :=
  if child.name = "role" then parseRole child regions
  else
    .error (.atSpan ("unexpected node `" ++ child.name ++ "` in system `" ++ name ++
      "` (expected `role`)") child.span)

/-- `parse_system`. -/
def parseSystem (node : KdlNode) (regions : Regions) : Except ParseError System := do
  let name ← firstStringArg node "name"
  let roles ← node.children.mapM (parseMember name regions)
  (System.new name roles).mapError fun e => .atSpan e.display node.span

/-! ## The document -/

/-- The variables of the loop of `parse`. -/
structure Collected where
  regions : Regions
  systems : List System
  seenSystems : List String

/-- One node of the top level. -/
def parseNode (st : Collected) (node : KdlNode) : Except ParseError Collected :=
  if node.name = "region" then do
    let (name, monitor, region) ← parseRegionDef node
    if (st.regions.get name).isSome then
      .error (.atSpan ("duplicate region: " ++ name) node.span)
    else .ok { st with regions := st.regions ++ [(name, monitor, region)] }
  else if node.name = "system" then do
    let system ← parseSystem node st.regions
    if system.name ∈ st.seenSystems then
      .error (.atSpan ("duplicate system: " ++ system.name) node.span)
    else
      .ok { st with
        systems := st.systems ++ [system]
        seenSystems := system.name :: st.seenSystems }
  else
    .error (.atSpan ("unexpected top-level node `" ++ node.name ++
      "` (expected `region` or `system`)") node.span)

/-- The loop. -/
def collect (doc : KdlDocument) : Except ParseError Collected := doc.foldlM parseNode ⟨[], [], []⟩

/-- What `parse` makes of a document. -/
def parseDocument (doc : KdlDocument) : Except ParseError Config := do
  let st ← collect doc
  (Config.new st.systems).mapError fun e => .spanless e.display

/-! ## When a reader succeeds -/

section
variable {α β ε ε' : Type}

@[simp] theorem bind_eq_ok {x : Except ε α} {f : α → Except ε β} {b : β} :
    x >>= f = .ok b ↔ ∃ a, x = .ok a ∧ f a = .ok b := by
  cases x with
  | error e => simp [bind, Except.bind]
  | ok a => simp [bind, Except.bind]

@[simp] theorem mapError_eq_ok {x : Except ε α} {f : ε → ε'} {a : α} :
    x.mapError f = .ok a ↔ x = .ok a := by
  cases x <;> simp [Except.mapError]

@[simp] theorem map_eq_ok {x : Except ε α} {f : α → β} {b : β} :
    x.map f = .ok b ↔ ∃ a, x = .ok a ∧ f a = b := by
  cases x <;> simp [Except.map]

theorem mapM_eq_ok {f : α → Except ε β} {as : List α} {bs : List β} :
    as.mapM f = .ok bs ↔ List.Forall₂ (fun a b => f a = .ok b) as bs := by
  induction as generalizing bs with
  | nil =>
    rw [List.mapM_nil, List.forall₂_nil_left_iff]
    exact ⟨fun h => (Except.ok.inj h).symm, fun h => congrArg Except.ok h.symm⟩
  | cons a as ih =>
    rw [List.mapM_cons, List.forall₂_cons_left_iff]
    simp only [bind_eq_ok, ih]
    constructor
    · rintro ⟨b, hb, bs', hbs, heq⟩
      exact ⟨b, bs', hb, hbs, (Except.ok.inj heq).symm⟩
    · rintro ⟨b, bs', hb, hbs, rfl⟩
      exact ⟨b, hb, bs', hbs, rfl⟩

end

/-- The first argument is the string. -/
def HasArg (node : KdlNode) (s : String) : Prop := node.args.head? = some (.string s)

theorem HasArg.unique {node : KdlNode} {s s' : String} (h : HasArg node s) (h' : HasArg node s') :
    s = s' := by
  have heq := h.symm.trans h'
  simpa using heq

theorem firstStringArg_eq_ok {node : KdlNode} {what s : String} :
    firstStringArg node what = .ok s ↔ HasArg node s := by
  unfold firstStringArg HasArg
  rw [← node.find?_arg]
  cases node.entries.find? fun e => e.name.isNone with
  | none => simp
  | some e => cases h : e.value <;> simp [KdlValue.asString, h]

/-- The monitor is what the `monitor` node of `parent` says. -/
def HasMonitor (parent : KdlNode) (monitor : String) : Prop :=
  ∃ node, parent.child "monitor" = some node ∧ HasArg node monitor

/-- The region is what the `rect` node of `parent` says. -/
def HasRect (parent : KdlNode) (r : Region) : Prop :=
  ∃ node, parent.child "rect" = some node ∧
    node.args = [.integer r.x.toNat, .integer r.y.toNat, .integer r.width.toNat,
      .integer r.height.toNat]

theorem parseMonitor_eq_ok {parent : KdlNode} {monitor : String} :
    parseMonitor parent = .ok monitor ↔ HasMonitor parent monitor := by
  unfold parseMonitor HasMonitor
  cases parent.child "monitor" <;> simp [firstStringArg_eq_ok]

theorem u8TryFrom_eq_some {n : Int} {c : UInt8} : u8TryFrom n = some c ↔ n = c.toNat := by
  have hlt := c.toNat_lt
  unfold u8TryFrom
  split
  · rename_i h
    rw [Option.some.injEq, ← UInt8.toNat_inj, UInt8.toNat_ofNat', Nat.mod_eq_of_lt (by omega)]
    omega
  · rename_i h
    exact iff_of_false nofun (by omega)

theorem coord_eq_ok {value : KdlValue} {node : KdlNode} {c : UInt8} :
    coord value node = .ok c ↔ value = .integer c.toNat ∧ c.toNat ≤ 100 := by
  have hcoord : coord value node = .ok c ↔
      ∃ n, value.asInteger = some n ∧ (u8TryFrom n).filter (fun n => decide (n ≤ 100)) = some c := by
    unfold coord
    cases value.asInteger with
    | none => simp
    | some n =>
      simp only [Option.some.injEq, exists_eq_left']
      generalize (u8TryFrom n).filter (fun n => decide (n ≤ 100)) = filtered
      cases filtered <;> simp
  simp only [hcoord, KdlValue.asInteger_eq_some, Option.filter_eq_some_iff, u8TryFrom_eq_some,
    decide_eq_true_eq, UInt8.le_iff_toNat_le, UInt8.reduceToNat]
  constructor
  · rintro ⟨n, hvalue, rfl, hle⟩
    exact ⟨hvalue, hle⟩
  · rintro ⟨hvalue, hle⟩
    exact ⟨_, hvalue, rfl, hle⟩

theorem parseRect_eq_ok {parent : KdlNode} {r : Region} :
    parseRect parent = .ok r ↔ HasRect parent r := by
  unfold parseRect HasRect
  cases parent.child "rect" with
  | none => simp
  | some node =>
    simp only [Option.some.injEq, exists_eq_left']
    split
    · rename_i x y w h hargs
      simp only [hargs, bind_eq_ok, mapError_eq_ok, coord_eq_ok, Region.new_eq_ok]
      constructor
      · rintro ⟨cx, ⟨rfl, -⟩, cy, ⟨rfl, -⟩, cw, ⟨rfl, -⟩, ch, ⟨rfl, -⟩, rfl, rfl, rfl, rfl⟩
        rfl
      · intro hall
        have hright := r.right_le
        have hbottom := r.bottom_le
        injection hall with hx hall
        injection hall with hy hall
        injection hall with hw hall
        injection hall with hh _
        exact ⟨r.x, ⟨hx, by omega⟩, r.y, ⟨hy, by omega⟩, r.width, ⟨hw, by omega⟩, r.height,
          ⟨hh, by omega⟩, rfl, rfl, rfl, rfl⟩
    · rename_i hfour
      refine iff_of_false nofun ?_
      intro hargs
      exact hfour _ _ _ _ hargs

/-- A region node says its name, its monitor and its rectangle. -/
def ReadsRegion (node : KdlNode) (d : String × String × Region) : Prop :=
  HasArg node d.1 ∧ HasMonitor node d.2.1 ∧ HasRect node d.2.2

theorem parseRegionDef_eq_ok {node : KdlNode} {d : String × String × Region} :
    parseRegionDef node = .ok d ↔ ReadsRegion node d := by
  unfold parseRegionDef ReadsRegion
  simp only [bind_eq_ok, firstStringArg_eq_ok, parseMonitor_eq_ok, parseRect_eq_ok]
  constructor
  · rintro ⟨name, hname, monitor, hmonitor, region, hregion, heq⟩
    obtain rfl := Except.ok.inj heq
    exact ⟨hname, hmonitor, hregion⟩
  · rintro ⟨hname, hmonitor, hregion⟩
    exact ⟨_, hname, _, hmonitor, _, hregion, rfl⟩

/-- A `sticky` or `app` node says the app and its profile. -/
def ReadsApp (node : KdlNode) (app : AppRef) : Prop :=
  HasArg node app.appId ∧ stringProp node "profile" = app.profile

theorem parseApp_eq_ok {node : KdlNode} {app : AppRef} :
    parseApp node = .ok app ↔ ReadsApp node app := by
  unfold parseApp ReadsApp
  simp only [bind_eq_ok, firstStringArg_eq_ok, mapError_eq_ok, AppRef.new_eq_ok]
  constructor
  · rintro ⟨appId, harg, rfl, hprofile⟩
    exact ⟨harg, hprofile.symm⟩
  · rintro ⟨harg, hprofile⟩
    exact ⟨_, harg, rfl, hprofile.symm⟩

theorem parseCandidate_eq_ok {node : KdlNode} {app : AppRef} :
    parseCandidate node = .ok app ↔ node.name = "app" ∧ ReadsApp node app := by
  unfold parseCandidate
  split <;> simp [parseApp_eq_ok, *]

/-- The binding is what the binding node of the role says, and flex where there is none. -/
def ReadsBinding (role : KdlNode) : Binding → Prop
  | .sticky app => ∃ node, role.child "sticky" = some node ∧ role.child "cycle" = none ∧
      role.child "pattern" = none ∧ ReadsApp node app
  | .cycle candidates _ => ∃ node, role.child "sticky" = none ∧ role.child "cycle" = some node ∧
      role.child "pattern" = none ∧
      List.Forall₂ (fun n app => n.name = "app" ∧ ReadsApp n app) node.children candidates
  | .pattern appId titleRegex _ _ => ∃ node, role.child "sticky" = none ∧
      role.child "cycle" = none ∧ role.child "pattern" = some node ∧
      stringProp node "app" = some appId ∧ stringProp node "title" = titleRegex
  | .flex => role.child "sticky" = none ∧ role.child "cycle" = none ∧ role.child "pattern" = none

theorem parseBinding_eq_ok {role : KdlNode} {b : Binding} :
    parseBinding role = .ok b ↔ ReadsBinding role b := by
  unfold parseBinding
  cases hs : role.child "sticky" with
  | some sticky =>
    cases hc : role.child "cycle" <;> cases hp : role.child "pattern" <;> cases b <;>
      simp [bindingKinds, ReadsBinding, hs, hc, hp, parseApp_eq_ok]
  | none =>
    cases hc : role.child "cycle" with
    | some cycle =>
      cases hp : role.child "pattern" with
      | some pattern => cases b <;> simp [bindingKinds, ReadsBinding, hs, hc, hp]
      | none =>
        cases b with
        | cycle candidates hlen =>
          simp [bindingKinds, ReadsBinding, hs, hc, hp, mapM_eq_ok, parseCandidate_eq_ok,
            Binding.newCycle_eq_ok]
          exact fun _ => hlen
        | _ => simp [bindingKinds, ReadsBinding, hs, hc, hp, Binding.newCycle_eq_ok]
    | none =>
      cases hp : role.child "pattern" with
      | some pattern =>
        cases happ : stringProp pattern "app" with
        | none => cases b <;> simp [bindingKinds, ReadsBinding, hs, hc, hp, happ]
        | some appId =>
          cases b with
          | pattern appId' titleRegex ha ht =>
            simp [bindingKinds, ReadsBinding, hs, hc, hp, happ, Binding.newPattern_eq_ok]
            constructor
            · rintro ⟨rfl, -, -, rfl⟩
              exact ⟨rfl, rfl⟩
            · rintro ⟨rfl, rfl⟩
              exact ⟨rfl, ht, ha, rfl⟩
          | _ => simp [bindingKinds, ReadsBinding, hs, hc, hp, happ, Binding.newPattern_eq_ok]
      | none => cases b <;> simp [bindingKinds, ReadsBinding, hs, hc, hp]

/-- A role has the geometry of the region that it names, and then none of its own, or its own. -/
def ReadsGeometry (table : String → Option (String × Region)) (node : KdlNode) (monitor : String)
    (region : Region) : Prop :=
  (∃ reference, stringProp node "region" = some reference ∧ node.child "monitor" = none ∧
    node.child "rect" = none ∧ table reference = some (monitor, region)) ∨
  (stringProp node "region" = none ∧ HasMonitor node monitor ∧ HasRect node region)

theorem parseGeometry_eq_ok {node : KdlNode} {name : String} {regions : Regions}
    {monitor : String} {region : Region} :
    parseGeometry node name regions = .ok (monitor, region) ↔
      ReadsGeometry regions.get node monitor region := by
  unfold parseGeometry ReadsGeometry
  cases stringProp node "region" with
  | some reference =>
    cases hget : regions.get reference <;> cases node.child "monitor" <;>
      cases node.child "rect" <;> simp [hget]
  | none =>
    simp only [bind_eq_ok, parseMonitor_eq_ok, parseRect_eq_ok, reduceCtorEq, false_and,
      exists_false, true_and, false_or]
    constructor
    · rintro ⟨monitor', hmonitor, region', hregion, heq⟩
      obtain ⟨rfl, rfl⟩ := Prod.mk.inj (Except.ok.inj heq)
      exact ⟨hmonitor, hregion⟩
    · rintro ⟨hmonitor, hregion⟩
      exact ⟨_, hmonitor, _, hregion, rfl⟩

/-- A role node says the role. -/
structure ReadsRole (table : String → Option (String × Region)) (node : KdlNode) (role : Role) :
    Prop where
  name : HasArg node role.name
  geometry : ReadsGeometry table node role.monitor role.region
  binding : ReadsBinding node role.binding

theorem parseRole_eq_ok {node : KdlNode} {regions : Regions} {role : Role} :
    parseRole node regions = .ok role ↔ ReadsRole regions.get node role := by
  unfold parseRole
  simp only [bind_eq_ok, firstStringArg_eq_ok, mapError_eq_ok, Role.new_eq_ok]
  constructor
  · rintro ⟨name, hname, ⟨monitor, region⟩, hgeometry, binding, hbinding, rfl, rfl, rfl, rfl⟩
    exact ⟨hname, parseGeometry_eq_ok.mp hgeometry, parseBinding_eq_ok.mp hbinding⟩
  · rintro ⟨hname, hgeometry, hbinding⟩
    exact ⟨_, hname, _, parseGeometry_eq_ok.mpr hgeometry, _, parseBinding_eq_ok.mpr hbinding,
      rfl, rfl, rfl, rfl⟩

theorem parseMember_eq_ok {node : KdlNode} {name : String} {regions : Regions} {role : Role} :
    parseMember name regions node = .ok role ↔
      node.name = "role" ∧ ReadsRole regions.get node role := by
  unfold parseMember
  split <;> simp [parseRole_eq_ok, *]

/-- A system node says the system: all its children are roles. -/
structure ReadsSystem (table : String → Option (String × Region)) (node : KdlNode)
    (system : System) : Prop where
  name : HasArg node system.name
  roles : List.Forall₂ (fun n role => n.name = "role" ∧ ReadsRole table n role)
    node.children system.roles

theorem parseSystem_eq_ok {node : KdlNode} {regions : Regions} {system : System} :
    parseSystem node regions = .ok system ↔ ReadsSystem regions.get node system := by
  unfold parseSystem
  simp only [bind_eq_ok, firstStringArg_eq_ok, mapM_eq_ok, parseMember_eq_ok, mapError_eq_ok,
    System.new_eq_ok]
  constructor
  · rintro ⟨name, hname, roles, hroles, rfl, rfl⟩
    exact ⟨hname, hroles⟩
  · rintro ⟨hname, hroles⟩
    exact ⟨_, hname, _, hroles, rfl, rfl⟩

end Halmasuit.Kushuh
