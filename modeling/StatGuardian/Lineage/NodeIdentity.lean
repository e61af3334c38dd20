import StatGuardian.Lineage.Model

namespace StatGuardian.Lineage

namespace IndexMap

variable {V : Type}

/-- A key that is there keeps its place and gets the new value. -/
def insertEntry (key : String) (value : V) : List (String × V) → List (String × V)
  | [] => [(key, value)]
  | (k, v) :: rest => if k = key then (k, value) :: rest else (k, v) :: insertEntry key value rest

theorem mem_keys_insertEntry (key : String) (value : V) (entries : List (String × V)) (k : String) :
    k ∈ (insertEntry key value entries).map Prod.fst ↔ k = key ∨ k ∈ entries.map Prod.fst := by
  induction entries with
  | nil => simp [insertEntry]
  | cons entry rest ih =>
    unfold insertEntry
    split_ifs with same
    · simp [← same]
    · rw [List.map_cons, List.mem_cons, ih, List.map_cons, List.mem_cons]
      exact or_left_comm

theorem nodup_insertEntry (key : String) (value : V) (entries : List (String × V))
    (nodup : (entries.map Prod.fst).Nodup) :
    ((insertEntry key value entries).map Prod.fst).Nodup := by
  induction entries with
  | nil => simp [insertEntry]
  | cons entry rest ih =>
    rw [List.map_cons, List.nodup_cons] at nodup
    unfold insertEntry
    split_ifs with same
    · exact List.nodup_cons.mpr nodup
    · rw [List.map_cons, List.nodup_cons, mem_keys_insertEntry]
      exact ⟨not_or.mpr ⟨same, nodup.1⟩, ih nodup.2⟩

theorem insertEntry_of_fresh {key : String} {entries : List (String × V)}
    (fresh : key ∉ entries.map Prod.fst) (value : V) :
    insertEntry key value entries = entries ++ [(key, value)] := by
  induction entries with
  | nil => rfl
  | cons entry rest ih =>
    rw [List.map_cons, List.mem_cons, not_or] at fresh
    rw [insertEntry, if_neg (Ne.symm fresh.1), ih fresh.2, List.cons_append]

def insert (map : IndexMap V) (key : String) (value : V) : IndexMap V :=
  ⟨insertEntry key value map.entries, nodup_insertEntry key value _ map.nodup⟩

def get (map : IndexMap V) (key : String) : Option V := map.entries.lookup key

def len (map : IndexMap V) : Nat := map.entries.length

def insertAll (key : V → String) (map : IndexMap V) (values : List V) : IndexMap V :=
  values.foldl (fun map v => map.insert (key v) v) map

theorem foldl_insertAll {G : Type} (values : G → IndexMap V) (add : G → V → G) (key : V → String)
    (adds : ∀ g v, values (add g v) = (values g).insert (key v) v) (vs : List V) (g : G) :
    values (vs.foldl add g) = insertAll key (values g) vs := by
  induction vs generalizing g with
  | nil => rfl
  | cons v rest ih =>
    refine (ih (add g v)).trans ?_
    rw [adds]
    rfl

theorem insertAll_of_distinct (key : V → String) (values : List V) (map : IndexMap V)
    (fresh : ∀ v ∈ values, key v ∉ map.entries.map Prod.fst) (distinct : (values.map key).Nodup) :
    (insertAll key map values).entries = map.entries ++ values.map (fun v => (key v, v)) := by
  induction values generalizing map with
  | nil => simp [insertAll]
  | cons v rest ih =>
    rw [List.map_cons, List.nodup_cons] at distinct
    rw [List.forall_mem_cons] at fresh
    have entries : (map.insert (key v) v).entries = map.entries ++ [(key v, v)] :=
      insertEntry_of_fresh fresh.1 v
    refine (ih (map.insert (key v) v) (fun w later => ?_) distinct.2).trans ?_
    · rw [insert, mem_keys_insertEntry, not_or]
      exact ⟨fun same => distinct.1 (same ▸ List.mem_map_of_mem later), fresh.2 w later⟩
    · rw [entries, List.append_assoc, List.map_cons, List.singleton_append]

theorem lookup_of_distinct (key : V → String) (values : List V)
    (distinct : (values.map key).Nodup) :
    ∀ v ∈ values, (values.map fun v => (key v, v)).lookup (key v) = some v := by
  induction values with
  | nil => exact nofun
  | cons head rest ih =>
    rw [List.map_cons, List.nodup_cons] at distinct
    intro v member
    rw [List.map_cons, List.lookup_cons]
    rcases List.mem_cons.mp member with rfl | later
    · rw [beq_self_eq_true]
    · have apart : key v ≠ key head := fun same => distinct.1 (same ▸ List.mem_map_of_mem later)
      rw [beq_false_of_ne apart]
      exact ih distinct.2 v later

/-- There is one entry a value, and the key of each value gives it back. -/
structure Keeps (key : V → String) (map : IndexMap V) (values : List V) : Prop where
  size : map.len = values.length
  found : ∀ v ∈ values, map.get (key v) = some v

theorem keeps_iff (key : V → String) (values : List V) (different : values.Nodup) :
    Keeps key (insertAll key .new values) values ↔ (values.map key).Nodup := by
  constructor
  · intro keeps
    refine List.Nodup.map_on (fun v memberV w memberW same => ?_) different
    have found := keeps.found v memberV
    rw [same, keeps.found w memberW] at found
    exact (Option.some.inj found).symm
  · intro distinct
    have entries : (insertAll key .new values).entries = values.map fun v => (key v, v) :=
      insertAll_of_distinct key values .new (by simp [new]) distinct
    refine ⟨by rw [len, entries, List.length_map], fun v member => ?_⟩
    rw [get, entries]
    exact lookup_of_distinct key values distinct v member

end IndexMap

section Nodes

structure NodeArgs (Version Time : Type) where
  tableId : String
  stage : String
  version : Version
  warehouse : String
  database : String
  schemaName : String
  tableName : String
  now : Time

namespace NodeArgs

variable {Version Time : Type} [ToString Version]

def nodeId (args : NodeArgs Version Time) : String :=
  args.tableId ++ "__" ++ args.stage ++ "__" ++ toString args.version

def triple (args : NodeArgs Version Time) : String × String × Version :=
  (args.tableId, args.stage, args.version)

/-- Two calls with one version, whose table ids and stages run together to one text. -/
def Overlap (a b : NodeArgs Version Time) : Prop :=
  a.version = b.version ∧ a.tableId ++ "__" ++ a.stage = b.tableId ++ "__" ++ b.stage

end NodeArgs

/-- Versions are told apart by texts without an underscore. -/
structure Spelling (Version : Type) [ToString Version] : Prop where
  plain : ∀ v : Version, '_' ∉ (toString v).toList
  injective : Function.Injective (toString : Version → String)

theorem nodeId_eq_iff {Version Time : Type} [ToString Version] (spelling : Spelling Version)
    (a b : NodeArgs Version Time) : a.nodeId = b.nodeId ↔ a.Overlap b := by
  constructor
  · intro same
    have texts := congrArg String.toList same
    have split : ∀ c : NodeArgs Version Time, c.nodeId.toList =
        ((c.tableId ++ "__" ++ c.stage).toList ++ ['_']) ++ '_' :: (toString c.version).toList := by
      intro c
      simp [NodeArgs.nodeId]
    rw [split, split] at texts
    obtain ⟨before, after⟩ :=
      append_last_inj (spelling.plain a.version) (spelling.plain b.version) texts
    exact ⟨spelling.injective (String.toList_inj.mp after),
      String.toList_inj.mp (List.append_cancel_right before)⟩
  · rintro ⟨version, text⟩
    rw [NodeArgs.nodeId, NodeArgs.nodeId, text, version]

theorem toDigits_plain (n : Nat) : ∀ c ∈ Nat.toDigits 10 n, c.isDigit = true := fun _ member =>
  Nat.isDigit_of_mem_toDigits (by decide) (by decide) member

theorem toDigits_injective : Function.Injective (Nat.toDigits 10) := by
  intro m n same
  rw [← Nat.ofDigitChars_ten_toDigits (n := m), same, Nat.ofDigitChars_ten_toDigits]

theorem spelling_nat : Spelling Nat where
  plain n member := by
    rw [Nat.toString_eq_repr, Nat.toList_repr] at member
    exact absurd (toDigits_plain n _ member) (by decide)
  injective m n same := by
    have texts := congrArg String.toList same
    rw [Nat.toString_eq_repr, Nat.toString_eq_repr, Nat.toList_repr, Nat.toList_repr] at texts
    exact toDigits_injective texts

theorem toList_toString_int (i : Int) : (toString i).toList =
    if i < 0 then '-' :: Nat.toDigits 10 i.natAbs else Nat.toDigits 10 i.natAbs := by
  cases i with
  | ofNat n =>
    have nonneg : ¬ Int.ofNat n < 0 := Int.not_lt.mpr (Int.natCast_nonneg n)
    rw [if_neg nonneg]
    exact Nat.toList_repr
  | negSucc n =>
    rw [if_pos (Int.negSucc_lt_zero n)]
    show ("-" ++ (n + 1).repr).toList = _
    rw [String.toList_append, Nat.toList_repr]
    rfl

theorem spelling_int : Spelling Int where
  plain i member := by
    have digits : '_' ∉ Nat.toDigits 10 i.natAbs := fun inside =>
      absurd (toDigits_plain _ _ inside) (by decide)
    rw [toList_toString_int] at member
    split_ifs at member
    · exact ((List.mem_cons.mp member).resolve_left (by decide) |> digits)
    · exact digits member
  injective i j same := by
    have minus : ∀ m n : Nat, '-' :: Nat.toDigits 10 m ≠ Nat.toDigits 10 n := fun m n equal =>
      absurd (toDigits_plain n '-' (equal ▸ List.mem_cons_self)) (by decide)
    have texts := congrArg String.toList same
    rw [toList_toString_int, toList_toString_int] at texts
    split_ifs at texts with left right right
    · have sizes := toDigits_injective (List.cons.inj texts).2
      omega
    · exact absurd texts (minus _ _)
    · exact absurd texts.symm (minus _ _)
    · have sizes := toDigits_injective texts
      omega

section Graphs

def LineageNode.new (args : NodeArgs Nat DateTime) : LineageNode where
  nodeId := args.nodeId
  tableId := args.tableId
  stage := args.stage
  version := args.version
  warehouse := args.warehouse
  database := args.database
  schemaName := args.schemaName
  tableName := args.tableName
  transformationSql := none
  transformationName := none
  description := none
  owner := none
  createdAt := args.now
  lastAccessed := none
  columns := []
  rowCount := none

namespace LineageGraph

def addNode (graph : LineageGraph) (node : LineageNode) : LineageGraph :=
  { graph with nodes := graph.nodes.insert node.nodeId node }

def getNode (graph : LineageGraph) (nodeId : String) : Option LineageNode := graph.nodes.get nodeId

end LineageGraph

namespace Py

/-- The dataclass `LineageNode` of `_lineage.py`. -/
structure LineageNode where
  nodeId : String
  tableId : String
  stage : String
  version : Int
  warehouse : String
  database : String
  schemaName : String
  tableName : String
  transformationSql : Option String
  transformationName : Option String
  description : Option String
  owner : Option String
  createdAt : Option String
  lastAccessed : Option String
  columns : List String
  rowCount : Option Int
  deriving DecidableEq, Repr

def createLineageNode (args : NodeArgs Int String) : LineageNode where
  nodeId := args.nodeId
  tableId := args.tableId
  stage := args.stage
  version := args.version
  warehouse := args.warehouse
  database := args.database
  schemaName := args.schemaName
  tableName := args.tableName
  transformationSql := none
  transformationName := none
  description := none
  owner := none
  createdAt := some args.now
  lastAccessed := none
  columns := []
  rowCount := none

/-- The nodes of the dataclass `LineageGraph`: a `dict` keeps its insertion order. -/
structure NodeDict where
  nodes : IndexMap LineageNode

def NodeDict.addNode (graph : NodeDict) (node : LineageNode) : NodeDict :=
  { graph with nodes := graph.nodes.insert node.nodeId node }

def NodeDict.getNode (graph : NodeDict) (nodeId : String) : Option LineageNode :=
  graph.nodes.get nodeId

end Py

def builtGraph (warehouseId : String) (now : DateTime) (calls : List (NodeArgs Nat DateTime)) :
    LineageGraph :=
  (calls.map LineageNode.new).foldl LineageGraph.addNode (.new warehouseId now)

def Py.builtGraph (calls : List (NodeArgs Int String)) : Py.NodeDict :=
  (calls.map Py.createLineageNode).foldl Py.NodeDict.addNode ⟨.new⟩

theorem nodes_builtGraph (warehouseId : String) (now : DateTime)
    (calls : List (NodeArgs Nat DateTime)) : (builtGraph warehouseId now calls).nodes =
      IndexMap.insertAll LineageNode.nodeId .new (calls.map LineageNode.new) :=
  IndexMap.foldl_insertAll LineageGraph.nodes _ _ (fun _ _ => rfl) _ _

theorem Py.nodes_builtGraph (calls : List (NodeArgs Int String)) : (Py.builtGraph calls).nodes =
    IndexMap.insertAll Py.LineageNode.nodeId .new (calls.map Py.createLineageNode) :=
  IndexMap.foldl_insertAll Py.NodeDict.nodes _ _ (fun _ _ => rfl) _ _

end Graphs

section Identity

variable {Version Time V : Type} [ToString Version]

/-- Nodes that keep their triple are all kept just if no two of their ids run together. -/
theorem kept_calls_iff (spelling : Spelling Version) {build : NodeArgs Version Time → V}
    {key : V → String} {calls : List (NodeArgs Version Time)} {nodes : IndexMap V}
    (built : nodes = IndexMap.insertAll key .new (calls.map build))
    (named : ∀ a, key (build a) = a.nodeId)
    (faithful : ∀ a b, build a = build b → a.triple = b.triple)
    (different : calls.Pairwise fun a b => a.triple ≠ b.triple) :
    (nodes.len = calls.length ∧ ∀ node ∈ calls.map build, nodes.get (key node) = some node) ↔
      calls.Pairwise fun a b => ¬ a.Overlap b := by
  have distinct : (calls.map build).Nodup :=
    List.pairwise_map.mpr (different.imp fun apart same => apart (faithful _ _ same))
  have ids : ((calls.map build).map key).Nodup ↔ calls.Pairwise fun a b => ¬ a.Overlap b := by
    rw [List.map_map, List.Nodup, List.pairwise_map]
    simp only [Function.comp_apply, named, ne_eq, nodeId_eq_iff spelling]
  rw [← ids, ← IndexMap.keeps_iff key _ distinct, ← built]
  constructor
  · exact fun kept => ⟨by rw [kept.1, List.length_map], kept.2⟩
  · exact fun kept => ⟨by rw [kept.size, List.length_map], kept.found⟩

theorem nodes_kept_iff (warehouseId : String) (now : DateTime) :
    (∀ calls : List (NodeArgs Nat DateTime), (calls.Pairwise fun a b => a.triple ≠ b.triple) →
      (((builtGraph warehouseId now calls).nodes.len = calls.length ∧
        ∀ node ∈ calls.map LineageNode.new,
          (builtGraph warehouseId now calls).getNode node.nodeId = some node) ↔
        calls.Pairwise fun a b => ¬ a.Overlap b)) ∧
    ∀ calls : List (NodeArgs Int String), (calls.Pairwise fun a b => a.triple ≠ b.triple) →
      (((Py.builtGraph calls).nodes.len = calls.length ∧
        ∀ node ∈ calls.map Py.createLineageNode,
          (Py.builtGraph calls).getNode node.nodeId = some node) ↔
        calls.Pairwise fun a b => ¬ a.Overlap b) := by
  constructor
  · intro calls different
    have faithful : ∀ a b, LineageNode.new a = LineageNode.new b → a.triple = b.triple := by
      intro a b same
      simp only [LineageNode.new, LineageNode.mk.injEq] at same
      simp only [NodeArgs.triple, same]
    have built := nodes_builtGraph warehouseId now calls
    exact kept_calls_iff spelling_nat built (fun _ => rfl) faithful different
  · intro calls different
    have faithful : ∀ a b, Py.createLineageNode a = Py.createLineageNode b →
        a.triple = b.triple := by
      intro a b same
      simp only [Py.createLineageNode, Py.LineageNode.mk.injEq] at same
      simp only [NodeArgs.triple, same]
    have built := Py.nodes_builtGraph calls
    exact kept_calls_iff spelling_int built (fun _ => rfl) faithful different

end Identity

section Calls

def node (tableId stage : String) (version : Nat) : NodeArgs Nat DateTime where
  tableId := tableId
  stage := stage
  version := version
  warehouse := "w"
  database := "d"
  schemaName := "s"
  tableName := "t"
  now := ⟨0⟩

theorem nodes_kept_iff_two : (builtGraph "w" ⟨0⟩ [node "a" "raw" 1, node "a" "raw" 2]).nodes.len = 2 ∧
    ∀ n ∈ [node "a" "raw" 1, node "a" "raw" 2].map LineageNode.new,
      (builtGraph "w" ⟨0⟩ [node "a" "raw" 1, node "a" "raw" 2]).getNode n.nodeId = some n := by
  refine ((nodes_kept_iff "w" ⟨0⟩).1 [node "a" "raw" 1, node "a" "raw" 2] (by decide)).mpr ?_
  rw [List.pairwise_pair]
  exact fun overlap => absurd overlap.1 (by decide)

/-- A separator inside a table id: the second node replaces the first. -/
theorem separator_replaces_node :
    ¬ ∀ calls : List (NodeArgs Nat DateTime), (calls.Pairwise fun a b => a.triple ≠ b.triple) →
      (builtGraph "w" ⟨0⟩ calls).nodes.len = calls.length ∧
        ∀ n ∈ calls.map LineageNode.new,
          (builtGraph "w" ⟨0⟩ calls).getNode n.nodeId = some n := by
  intro kept
  have both := kept [node "a__b" "c" 1, node "a" "b__c" 1] (by decide)
  exact absurd both.1 (by decide)

end Calls

end Nodes

end StatGuardian.Lineage
