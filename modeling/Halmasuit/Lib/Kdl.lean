import Mathlib.Data.List.Nodup

/-!
# KDL documents

The tree of a document: nodes with a name, arguments and properties in the order they are written,
and child nodes. Type annotations and the layout of the text are left out, and a node without a
block of children is one with an empty block.
-/

namespace Halmasuit.Lib.Kdl

/-- A part of a text, in bytes. -/
structure Span where
  offset : Nat
  len : Nat
  deriving DecidableEq

/-- A value. A float is its bits. -/
inductive KdlValue where
  | string (s : String)
  | integer (n : Int)
  | float (bits : UInt64)
  | bool (b : Bool)
  | null
  deriving DecidableEq

/-- An argument, or a property where there is a name. -/
structure KdlEntry where
  name : Option String
  value : KdlValue
  deriving DecidableEq

/-- A node. -/
inductive KdlNode where
  | mk (name : String) (entries : List KdlEntry) (children : List KdlNode) (span : Span)

/-- A document. -/
abbrev KdlDocument := List KdlNode

def KdlNode.name : KdlNode → String
  | .mk name _ _ _ => name

def KdlNode.entries : KdlNode → List KdlEntry
  | .mk _ entries _ _ => entries

def KdlNode.children : KdlNode → KdlDocument
  | .mk _ _ children _ => children

def KdlNode.span : KdlNode → Span
  | .mk _ _ _ span => span

/-- The arguments of a node. -/
def KdlNode.args (node : KdlNode) : List KdlValue :=
  (node.entries.filter fun e => e.name.isNone).map KdlEntry.value

/-- The value of a property: of a key that is repeated, the rightmost. -/
def KdlNode.prop (node : KdlNode) (key : String) : Option KdlValue :=
  (node.entries.reverse.find? fun e => decide (e.name = some key)).map KdlEntry.value

/-- The first child of a name. -/
def KdlNode.child (node : KdlNode) (name : String) : Option KdlNode :=
  node.children.find? fun n => decide (n.name = name)

/-- The string, if it is one. -/
def KdlValue.asString : KdlValue → Option String
  | .string s => some s
  | _ => none

/-- The integer, if it is one. -/
def KdlValue.asInteger : KdlValue → Option Int
  | .integer n => some n
  | _ => none

theorem KdlValue.asString_eq_some {v : KdlValue} {s : String} :
    v.asString = some s ↔ v = .string s := by
  cases v <;> simp [asString]

theorem KdlValue.asInteger_eq_some {v : KdlValue} {n : Int} :
    v.asInteger = some n ↔ v = .integer n := by
  cases v <;> simp [asInteger]

/-- The first of the arguments, as it is looked up among the entries. -/
theorem KdlNode.find?_arg (node : KdlNode) :
    (node.entries.find? fun e => e.name.isNone).map KdlEntry.value = node.args.head? := by
  rw [args, List.head?_map, List.head?_filter]

theorem KdlNode.child_eq_some {node c : KdlNode} {name : String} (h : node.child name = some c) :
    c ∈ node.children ∧ c.name = name :=
  ⟨List.mem_of_find?_eq_some h, by simpa using List.find?_some h⟩

theorem find?_name_of_mem {nodes : List KdlNode} {c : KdlNode}
    (hnodup : (nodes.map KdlNode.name).Nodup) (hc : c ∈ nodes) :
    nodes.find? (fun n => decide (n.name = c.name)) = some c := by
  induction nodes with
  | nil => cases hc
  | cons n nodes ih =>
    rw [List.map_cons, List.nodup_cons] at hnodup
    rcases List.mem_cons.mp hc with rfl | hc
    · exact List.find?_cons_of_pos (by simp)
    · have hne : n.name ≠ c.name := fun heq => hnodup.1 (heq ▸ List.mem_map_of_mem hc)
      rw [List.find?_cons_of_neg (by simpa using hne)]
      exact ih hnodup.2 hc

/-- Where no two children have the same name, every one of them is found by its name. -/
theorem KdlNode.child_of_mem {node c : KdlNode} (hnodup : (node.children.map KdlNode.name).Nodup)
    (hc : c ∈ node.children) : node.child c.name = some c :=
  find?_name_of_mem hnodup hc

/-- Where these are all the names of the children, and each is the name of one child at most, the
children are found by looking the names up. -/
theorem KdlNode.children_perm {node : KdlNode} {names : List String} (hnames : names.Nodup)
    (hall : ∀ c ∈ node.children, c.name ∈ names)
    (hnodup : (node.children.map KdlNode.name).Nodup) :
    node.children.Perm (names.filterMap node.child) := by
  have hfound : (names.filterMap node.child).Nodup := by
    refine List.Nodup.filterMap (fun name name' c hc hc' => ?_) hnames
    rw [← (child_eq_some hc).2, (child_eq_some hc').2]
  rw [List.perm_ext_iff_of_nodup (List.Nodup.of_map _ hnodup) hfound]
  intro c
  rw [List.mem_filterMap]
  constructor
  · exact fun hc => ⟨c.name, hall c hc, child_of_mem hnodup hc⟩
  · rintro ⟨name, -, hc⟩
    exact (child_eq_some hc).1

end Halmasuit.Lib.Kdl
