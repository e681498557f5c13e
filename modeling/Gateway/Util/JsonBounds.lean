import Gateway.Util.JsonText
import Gateway.Util.Sanitize

/-!
What the bounds on a JSON value count, and what a copy leaves out.

The walk with its early cut-off accepts exactly the values whose nodes and levels,
counted by recursion, are within the limits. A value is its entries, each with
the path to it, and a copy has those that no forbidden key leads to.
-/

namespace Gateway

namespace Json

mutual

/-- The number of values in a value, with itself. -/
def nodes : Json → Nat
  | .arr items => itemsNodes items + 1
  | .obj fields => fieldsNodes fields + 1
  | _ => 1

def itemsNodes : List Json → Nat
  | [] => 0
  | item :: rest => nodes item + itemsNodes rest

def fieldsNodes : List (String × Json) → Nat
  | [] => 0
  | (_, value) :: rest => nodes value + fieldsNodes rest

end

mutual

/-- The number of levels of a value; a value that holds no others is one level. -/
def depth : Json → Nat
  | .arr items => itemsDepth items + 1
  | .obj fields => fieldsDepth fields + 1
  | _ => 1

def itemsDepth : List Json → Nat
  | [] => 0
  | item :: rest => max (depth item) (itemsDepth rest)

def fieldsDepth : List (String × Json) → Nat
  | [] => 0
  | (_, value) :: rest => max (depth value) (fieldsDepth rest)

end

section Counting

theorem itemsNodes_eq (items : List Json) : itemsNodes items = (items.map nodes).sum := by
  induction items with
  | nil => rfl
  | cons item rest ih => rw [itemsNodes, ih, List.map_cons, List.sum_cons]

theorem fieldsNodes_eq (fields : Record) :
    fieldsNodes fields = ((fields.map Prod.snd).map nodes).sum := by
  induction fields with
  | nil => rfl
  | cons entry rest ih => rw [fieldsNodes, ih, List.map_cons, List.map_cons, List.sum_cons]

theorem nodes_eq (value : Json) : value.nodes = (value.children.map nodes).sum + 1 := by
  cases value with
  | arr items => rw [nodes, itemsNodes_eq, children]
  | obj fields => rw [nodes, fieldsNodes_eq, children]
  | null | bool _ | num _ | str _ => rfl

theorem itemsDepth_le_iff (items : List Json) (n : Nat) :
    itemsDepth items ≤ n ↔ ∀ item ∈ items, item.depth ≤ n := by
  induction items with
  | nil => simp [itemsDepth]
  | cons item rest ih => rw [itemsDepth, Nat.max_le, ih, List.forall_mem_cons]

theorem fieldsDepth_le_iff (fields : Record) (n : Nat) :
    fieldsDepth fields ≤ n ↔ ∀ value ∈ fields.map Prod.snd, value.depth ≤ n := by
  induction fields with
  | nil => simp [fieldsDepth]
  | cons entry rest ih => rw [fieldsDepth, Nat.max_le, ih, List.map_cons, List.forall_mem_cons]

theorem depth_le_iff (value : Json) (n : Nat) :
    value.depth ≤ n + 1 ↔ ∀ child ∈ value.children, child.depth ≤ n := by
  cases value with
  | arr items => rw [depth, Nat.add_le_add_iff_right, itemsDepth_le_iff, children]
  | obj fields => rw [depth, Nat.add_le_add_iff_right, fieldsDepth_le_iff, children]
  | null | bool _ | num _ | str _ => simp [depth, children]

theorem one_le_nodes (value : Json) : 1 ≤ value.nodes := by
  rw [nodes_eq]
  exact Nat.le_add_left 1 _

theorem one_le_depth (value : Json) : 1 ≤ value.depth := by
  cases value <;> simp [depth]

theorem length_le_nodes (values : List Json) : values.length ≤ (values.map nodes).sum := by
  induction values with
  | nil => exact Nat.le_refl 0
  | cons value rest ih =>
      have positive := one_le_nodes value
      rw [List.length_cons, List.map_cons, List.sum_cons]
      omega

end Counting

section Walk

/-- The work that is on a stack. -/
def stackNodes (stack : List (Json × Nat)) : Nat := (stack.map fun entry => entry.1.nodes).sum

theorem stackNodes_append (first rest : List (Json × Nat)) :
    stackNodes (first ++ rest) = stackNodes first + stackNodes rest := by
  rw [stackNodes, List.map_append, List.sum_append, stackNodes, stackNodes]

theorem stackNodes_reverse (stack : List (Json × Nat)) :
    stackNodes stack.reverse = stackNodes stack := by
  rw [stackNodes, List.map_reverse, List.sum_reverse, stackNodes]

theorem stackNodes_children (value : Json) (level : Nat) :
    stackNodes (value.children.map fun child => (child, level)) + 1 = value.nodes := by
  rw [stackNodes, List.map_map, nodes_eq]
  rfl

theorem length_le_stackNodes (stack : List (Json × Nat)) : stack.length ≤ stackNodes stack := by
  have counted := length_le_nodes (stack.map Prod.fst)
  rw [List.length_map, List.map_map] at counted
  exact counted

/-- A level and what is below it stay within a bound. -/
theorem level_add_depth_le (value : Json) (level bound : Nat) :
    level + value.depth ≤ bound + 1 ↔
      level ≤ bound ∧ ∀ child ∈ value.children, level + 1 + child.depth ≤ bound + 1 := by
  have positive := one_le_depth value
  by_cases within : level ≤ bound
  · have below := depth_le_iff value (bound - level)
    constructor
    · intro h
      refine ⟨within, ?_⟩
      intro child mem
      have := below.mp (by omega) child mem
      omega
    · intro h
      have := below.mpr (by
        intro child mem
        have := h.2 child mem
        omega)
      omega
  · constructor
    · intro h
      omega
    · intro h
      exact absurd h.1 within

/-- The walk ends without an error exactly if what is on its stack is within the
limits; the test of the width refuses nothing else. -/
theorem walk_ok_iff (limits : JsonLimits) (left : Nat) (stack : List (Json × Nat)) :
    walk limits left stack = .ok () ↔
      stackNodes stack ≤ left ∧
        ∀ entry ∈ stack, entry.2 + entry.1.depth ≤ limits.maxDepth + 1 := by
  induction left generalizing stack with
  | zero =>
      cases stack with
      | nil => simp [walk, stackNodes]
      | cons entry rest =>
          have counted := length_le_stackNodes (entry :: rest)
          rw [List.length_cons] at counted
          simp only [walk, reduceCtorEq, false_iff, not_and]
          intro h
          omega
  | succ left ih =>
      cases stack with
      | nil => simp [walk, stackNodes]
      | cons entry rest =>
          obtain ⟨value, level⟩ := entry
          have split_nodes : stackNodes ((value, level) :: rest) =
              value.nodes + stackNodes rest := rfl
          have below := stackNodes_children value (level + 1)
          have levels := level_add_depth_le value level limits.maxDepth
          rw [walk, List.forall_mem_cons, levels, split_nodes]
          by_cases deep : limits.maxDepth < level
          · rw [if_pos deep]
            simp only [reduceCtorEq, false_iff]
            intro h
            omega
          · rw [if_neg deep]
            by_cases wide : left < rest.length + value.children.length
            · rw [if_pos wide]
              simp only [reduceCtorEq, false_iff]
              intro h
              have siblings := length_le_stackNodes rest
              have width := length_le_nodes value.children
              have counted := nodes_eq value
              omega
            · rw [if_neg wide, ih, stackNodes_append, stackNodes_reverse,
                List.forall_mem_append]
              simp only [List.mem_reverse, List.forall_mem_map]
              constructor
              · intro h
                exact ⟨by omega, ⟨by omega, h.2.1⟩, h.2.2⟩
              · intro h
                exact ⟨by omega, h.2.1.2, h.2.2⟩

theorem assertLimits_ok_iff (limits : JsonLimits) (value : Json) :
    assertLimits limits value = .ok () ↔
      value.nodes ≤ limits.maxNodes ∧ value.depth ≤ limits.maxDepth := by
  rw [assertLimits, walk_ok_iff]
  simp only [stackNodes, List.map_cons, List.map_nil, List.sum_cons, List.sum_nil,
    List.forall_mem_singleton]
  constructor
  · intro h
    omega
  · intro h
    omega

end Walk

section JsonDepth

/-- The loop of `jsonDepth` with the deepest level so far. -/
def depthLoop (deepest : Nat) : List (Json × Nat) → Nat
  | [] => deepest
  | (value, level) :: stack =>
      depthLoop (if deepest < level then level else deepest)
        ((value.children.map fun child => (child, level + 1)).reverse ++ stack)
termination_by stack => stackNodes stack
decreasing_by
  have below := stackNodes_children value (level + 1)
  rw [stackNodes_append, stackNodes_reverse]
  change _ < value.nodes + stackNodes stack
  omega

def jsonDepth (value : Json) : Nat := depthLoop 0 [(value, 1)]

theorem depthLoop_le_iff (deepest : Nat) (stack : List (Json × Nat)) (bound : Nat) :
    depthLoop deepest stack ≤ bound ↔
      deepest ≤ bound ∧ ∀ entry ∈ stack, entry.2 + entry.1.depth ≤ bound + 1 := by
  induction deepest, stack using depthLoop.induct with
  | case1 deepest => simp [depthLoop]
  | case2 deepest value level stack ih =>
      rw [dite_eq_ite] at ih
      rw [depthLoop, ih, List.forall_mem_append, List.forall_mem_cons, level_add_depth_le]
      simp only [List.mem_reverse, List.forall_mem_map]
      constructor
      · intro h
        have here := h.1
        split at here
        · exact ⟨by omega, ⟨here, h.2.1⟩, h.2.2⟩
        · exact ⟨here, ⟨by omega, h.2.1⟩, h.2.2⟩
      · intro h
        refine ⟨?_, h.2.1.2, h.2.2⟩
        split
        · exact h.2.1.1
        · exact h.1

theorem jsonDepth_eq (value : Json) : jsonDepth value = value.depth := by
  refine eq_of_forall_ge_iff ?_
  intro bound
  rw [jsonDepth, depthLoop_le_iff, List.forall_mem_singleton]
  dsimp only
  constructor
  · intro h
    omega
  · intro h
    omega

end JsonDepth

/-- What is at a path: a leaf, or the kind of a container. -/
inductive Shape where
  | leaf (value : Json)
  | arr
  | obj

/-- One level of a path. -/
inductive Step where
  | index (position : Nat)
  | key (name : String)
deriving DecidableEq, Repr

abbrev Entry := List Step × Shape

def Entry.under (step : Step) (entry : Entry) : Entry := (step :: entry.1, entry.2)

mutual

/-- Everything in a value with the path to it, in order. -/
def entries : Json → List Entry
  | .arr items => ([], .arr) :: itemsEntries 0 items
  | .obj fields => ([], .obj) :: fieldsEntries fields
  | value => [([], .leaf value)]

def itemsEntries : (position : Nat) → List Json → List Entry
  | _, [] => []
  | position, item :: rest =>
      (entries item).map (Entry.under (.index position)) ++ itemsEntries (position + 1) rest

def fieldsEntries : List (String × Json) → List Entry
  | [] => []
  | (name, value) :: rest => (entries value).map (Entry.under (.key name)) ++ fieldsEntries rest

end

/-- No level of the path is an entry under a forbidden key. -/
def Step.kept : Step → Bool
  | .index _ => true
  | .key name => !forbiddenKeys.contains name

def Entry.kept (entry : Entry) : Bool := entry.1.all Step.kept

section Stripping

theorem filter_under (step : Step) (list : List Entry) :
    (list.map (Entry.under step)).filter Entry.kept =
      if step.kept then (list.filter Entry.kept).map (Entry.under step) else [] := by
  induction list with
  | nil => simp
  | cons entry rest ih =>
      have head : Entry.kept (Entry.under step entry) = (step.kept && entry.kept) := rfl
      rw [List.map_cons, List.filter_cons, ih, head]
      cases step.kept with
      | false => rfl
      | true =>
          rw [Bool.true_and, if_pos rfl, if_pos rfl, List.filter_cons]
          split <;> rfl

mutual

/-- A copy has the entries of the value that no forbidden key leads to. -/
theorem entries_clone : (value : Json) →
    value.cloneSanitized.entries = value.entries.filter Entry.kept
  | .null | .bool _ | .num _ | .str _ => rfl
  | .arr items => by
      rw [cloneSanitized, entries, entries, itemsEntries_clone 0 items]
      rfl
  | .obj fields => by
      rw [cloneSanitized, entries, entries, fieldsEntries_clone fields]
      rfl

theorem itemsEntries_clone : (position : Nat) → (items : List Json) →
    itemsEntries position (cloneItems items) = (itemsEntries position items).filter Entry.kept
  | _, [] => rfl
  | position, item :: rest => by
      rw [cloneItems, itemsEntries, itemsEntries, entries_clone item,
        itemsEntries_clone (position + 1) rest, List.filter_append, filter_under]
      rfl

theorem fieldsEntries_clone : (fields : List (String × Json)) →
    fieldsEntries (cloneFields fields) = (fieldsEntries fields).filter Entry.kept
  | [] => rfl
  | (name, value) :: rest => by
      rw [cloneFields, fieldsEntries, List.filter_append, filter_under,
        ← fieldsEntries_clone rest, ← entries_clone value, Step.kept]
      cases forbiddenKeys.contains name with
      | true => rfl
      | false => rfl

end

end Stripping

section Unique

theorem append_split {α : Type} {p : α → Prop} {front front' rest rest' : List α}
    (front_all : ∀ a ∈ front, p a) (front_all' : ∀ a ∈ front', p a)
    (rest_not : ∀ a ∈ rest.head?, ¬p a) (rest_not' : ∀ a ∈ rest'.head?, ¬p a)
    (h : front ++ rest = front' ++ rest') : front = front' ∧ rest = rest' := by
  induction front generalizing front' with
  | nil =>
      cases front' with
      | nil => exact ⟨rfl, h⟩
      | cons b more =>
          rw [List.nil_append] at h
          refine absurd (front_all' b (by simp)) (rest_not b ?_)
          rw [h]
          rfl
  | cons a front ih =>
      cases front' with
      | nil =>
          rw [List.nil_append] at h
          refine absurd (front_all a (by simp)) (rest_not' a ?_)
          rw [← h]
          rfl
      | cons b more =>
          rw [List.cons_append, List.cons_append, List.cons.injEq] at h
          have same := ih (fun x mem => front_all x (by simp [mem]))
            (fun x mem => front_all' x (by simp [mem])) h.2
          exact ⟨by rw [h.1, same.1], same.2⟩

theorem under_injective (step : Step) : Function.Injective (Entry.under step) := by
  intro a b same
  simp only [Entry.under, Prod.mk.injEq, List.cons.injEq, true_and] at same
  exact Prod.ext same.1 same.2

theorem itemsEntries_below (position : Nat) (items : List Json) :
    ∀ entry ∈ itemsEntries position items, entry.1 ≠ [] := by
  induction items generalizing position with
  | nil => simp [itemsEntries]
  | cons item rest ih =>
      rw [itemsEntries, List.forall_mem_append, List.forall_mem_map]
      exact ⟨fun entry _ => List.cons_ne_nil _ _, ih (position + 1)⟩

theorem fieldsEntries_below (fields : Record) :
    ∀ entry ∈ fieldsEntries fields, entry.1 ≠ [] := by
  induction fields with
  | nil => simp [fieldsEntries]
  | cons field rest ih =>
      rw [fieldsEntries, List.forall_mem_append, List.forall_mem_map]
      exact ⟨fun entry _ => List.cons_ne_nil _ _, ih⟩

/-- A value comes first among its entries, and only it has the empty path. -/
theorem entries_eq_cons (value : Json) :
    ∃ shape below, value.entries = ([], shape) :: below ∧ ∀ entry ∈ below, entry.1 ≠ [] := by
  cases value with
  | arr items => exact ⟨.arr, _, rfl, itemsEntries_below 0 items⟩
  | obj fields => exact ⟨.obj, _, rfl, fieldsEntries_below fields⟩
  | null | bool _ | num _ | str _ => exact ⟨_, [], rfl, by simp⟩

/-- A list of entries of which the first, if there is one, is one level down. -/
def Starts (list : List Entry) : Prop := ∀ entry ∈ list.head?, entry.1.length = 1

theorem starts_under (step : Step) (value : Json) (rest : List Entry) :
    Starts (value.entries.map (Entry.under step) ++ rest) := by
  obtain ⟨shape, below, opened, -⟩ := entries_eq_cons value
  intro entry first
  rw [opened] at first
  cases first
  rfl

theorem itemsEntries_starts (position : Nat) (items : List Json) :
    Starts (itemsEntries position items) := by
  cases items with
  | nil => simp [Starts, itemsEntries]
  | cons item rest => exact starts_under _ item _

theorem fieldsEntries_starts (fields : Record) : Starts (fieldsEntries fields) := by
  cases fields with
  | nil => simp [Starts, fieldsEntries]
  | cons field rest => exact starts_under _ field.2 _

theorem under_append_split {step step' : Step} {value value' : Json} {rest rest' : List Entry}
    (starts : Starts rest) (starts' : Starts rest')
    (h : value.entries.map (Entry.under step) ++ rest =
      value'.entries.map (Entry.under step') ++ rest') :
    step = step' ∧ value.entries = value'.entries ∧ rest = rest' := by
  obtain ⟨shape, below, opened, deeper⟩ := entries_eq_cons value
  obtain ⟨shape', below', opened', deeper'⟩ := entries_eq_cons value'
  rw [opened, opened'] at h
  simp only [List.map_cons, List.cons_append, List.cons.injEq, Entry.under, Prod.mk.injEq,
    and_true] at h
  obtain ⟨⟨rfl, rfl⟩, tails⟩ := h
  have long : ∀ list : List Entry, (∀ entry ∈ list, entry.1 ≠ []) →
      ∀ entry ∈ list.map (Entry.under step), 1 < entry.1.length := by
    intro list nonempty
    rw [List.forall_mem_map]
    intro entry mem
    exact Nat.succ_lt_succ (List.length_pos_of_ne_nil (nonempty entry mem))
  have halves := append_split (long below deeper) (long below' deeper')
    (fun entry first => by rw [starts entry first]; exact Nat.lt_irrefl 1)
    (fun entry first => by rw [starts' entry first]; exact Nat.lt_irrefl 1) tails
  refine ⟨rfl, ?_, halves.2⟩
  rw [opened, opened', List.map_injective_iff.mpr (under_injective step) halves.1]

mutual

/-- A value is its entries. -/
theorem entries_injective : (value value' : Json) → value.entries = value'.entries →
    value = value'
  | .null, value', h | .bool _, value', h | .num _, value', h | .str _, value', h => by
      cases value' <;> simp_all [entries]
  | .arr items, value', h => by
      cases value' with
      | arr items' =>
          rw [entries, entries, List.cons.injEq] at h
          rw [itemsEntries_injective 0 items items' h.2]
      | null | bool _ | num _ | str _ | obj _ => simp [entries] at h
  | .obj fields, value', h => by
      cases value' with
      | obj fields' =>
          rw [entries, entries, List.cons.injEq] at h
          rw [fieldsEntries_injective fields fields' h.2]
      | null | bool _ | num _ | str _ | arr _ => simp [entries] at h

theorem itemsEntries_injective : (position : Nat) → (items items' : List Json) →
    itemsEntries position items = itemsEntries position items' → items = items'
  | _, [], items', h => by
      cases items' with
      | nil => rfl
      | cons item' rest' =>
          obtain ⟨shape, below, opened, -⟩ := entries_eq_cons item'
          simp [itemsEntries, opened] at h
  | position, item :: rest, items', h => by
      cases items' with
      | nil =>
          obtain ⟨shape, below, opened, -⟩ := entries_eq_cons item
          simp [itemsEntries, opened] at h
      | cons item' rest' =>
          rw [itemsEntries, itemsEntries] at h
          have halves := under_append_split (itemsEntries_starts _ _) (itemsEntries_starts _ _) h
          rw [entries_injective item item' halves.2.1,
            itemsEntries_injective (position + 1) rest rest' halves.2.2]

theorem fieldsEntries_injective : (fields fields' : List (String × Json)) →
    fieldsEntries fields = fieldsEntries fields' → fields = fields'
  | [], fields', h => by
      cases fields' with
      | nil => rfl
      | cons field' rest' =>
          obtain ⟨shape, below, opened, -⟩ := entries_eq_cons field'.2
          simp [fieldsEntries, opened] at h
  | (name, value) :: rest, fields', h => by
      cases fields' with
      | nil =>
          obtain ⟨shape, below, opened, -⟩ := entries_eq_cons value
          simp [fieldsEntries, opened] at h
      | cons field' rest' =>
          obtain ⟨name', value'⟩ := field'
          rw [fieldsEntries, fieldsEntries] at h
          have halves := under_append_split (fieldsEntries_starts _) (fieldsEntries_starts _) h
          rw [Step.key.inj halves.1, entries_injective value value' halves.2.1,
            fieldsEntries_injective rest rest' halves.2.2]

end

/-- The copy is the one value with exactly the entries that are kept. -/
theorem eq_clone_iff (value result : Json) :
    result = value.cloneSanitized ↔ result.entries = value.entries.filter Entry.kept := by
  rw [← entries_clone]
  exact ⟨congrArg entries, entries_injective result _⟩

end Unique

section Again

/-- Nothing more is left out of a copy. -/
theorem clone_clone (value : Json) :
    value.cloneSanitized.cloneSanitized = value.cloneSanitized := by
  rw [eq_comm, eq_clone_iff, entries_clone, List.filter_filter]
  simp only [Bool.and_self]

mutual

theorem nodes_clone_le : (value : Json) → value.cloneSanitized.nodes ≤ value.nodes
  | .null | .bool _ | .num _ | .str _ => Nat.le_refl 1
  | .arr items => Nat.succ_le_succ (itemsNodes_clone_le items)
  | .obj fields => Nat.succ_le_succ (fieldsNodes_clone_le fields)

theorem itemsNodes_clone_le : (items : List Json) →
    itemsNodes (cloneItems items) ≤ itemsNodes items
  | [] => Nat.le_refl 0
  | item :: rest => Nat.add_le_add (nodes_clone_le item) (itemsNodes_clone_le rest)

theorem fieldsNodes_clone_le : (fields : List (String × Json)) →
    fieldsNodes (cloneFields fields) ≤ fieldsNodes fields
  | [] => Nat.le_refl 0
  | (name, value) :: rest => by
      have here := nodes_clone_le value
      have below := fieldsNodes_clone_le rest
      rw [cloneFields, fieldsNodes]
      split
      · omega
      · rw [fieldsNodes]
        omega

end

mutual

theorem depth_clone_le : (value : Json) → value.cloneSanitized.depth ≤ value.depth
  | .null | .bool _ | .num _ | .str _ => Nat.le_refl 1
  | .arr items => Nat.succ_le_succ (itemsDepth_clone_le items)
  | .obj fields => Nat.succ_le_succ (fieldsDepth_clone_le fields)

theorem itemsDepth_clone_le : (items : List Json) →
    itemsDepth (cloneItems items) ≤ itemsDepth items
  | [] => Nat.le_refl 0
  | item :: rest => max_le_max (depth_clone_le item) (itemsDepth_clone_le rest)

theorem fieldsDepth_clone_le : (fields : List (String × Json)) →
    fieldsDepth (cloneFields fields) ≤ fieldsDepth fields
  | [] => Nat.le_refl 0
  | (name, value) :: rest => by
      have here := depth_clone_le value
      have below := fieldsDepth_clone_le rest
      rw [cloneFields, fieldsDepth]
      split
      · omega
      · rw [fieldsDepth]
        omega

end

end Again

end Json

/-- The part of the configuration that bounds a payload. -/
structure JsonConfig where
  maxRequestBodyBytes : Nat
  maxJsonDepth : Nat
  maxJsonNodes : Nat

structure JsonParseOptions where
  maxBytes : Option Nat := none
  maxDepth : Option Nat := none
  maxNodes : Option Nat := none

def JsonParseOptions.limits (config : JsonConfig) (options : JsonParseOptions) : JsonLimits where
  maxDepth := options.maxDepth.getD config.maxJsonDepth
  maxNodes := options.maxNodes.getD config.maxJsonNodes

/-- What a parse throws: `JsonLimitError` with its limit and message, or the parser's own error. -/
inductive JsonFailure where
  | limit (limit message : String)
  | syntaxError
deriving DecidableEq, Repr

namespace Json

def Limit.name : Limit → String
  | .nodes => "nodes"
  | .depth => "depth"

def Limit.failure (limits : JsonLimits) (limit : Limit) : JsonFailure :=
  .limit limit.name (limit.message limits)

end Json

def assertJsonLimits (config : JsonConfig) (options : JsonParseOptions) (value : Json) :
    Except JsonFailure Unit :=
  (value.assertLimits (options.limits config)).mapError (Json.Limit.failure (options.limits config))

def safeJsonParse (config : JsonConfig) (options : JsonParseOptions) (text : String) :
    Except JsonFailure Json :=
  let maxBytes := options.maxBytes.getD config.maxRequestBodyBytes
  if maxBytes < text.utf8ByteSize then
    .error (.limit "bytes" ("payload exceeds " ++ toString maxBytes ++ " bytes"))
  else
    match jsonParse text with
    | none => .error .syntaxError
    | some parsed => (assertJsonLimits config options parsed).map fun _ => parsed.cloneSanitized

/-- `sanitizeParsed` of any value. -/
def Json.sanitizeParsed (config : JsonConfig) (value : Json) : Except JsonFailure Json :=
  (assertJsonLimits config {} value).map fun _ => value.cloneSanitized

section Exact

variable (config : JsonConfig) (options : JsonParseOptions)

theorem assertJsonLimits_ok_iff (value : Json) :
    assertJsonLimits config options value = .ok () ↔
      value.nodes ≤ (options.limits config).maxNodes ∧
        value.depth ≤ (options.limits config).maxDepth := by
  rw [← Json.assertLimits_ok_iff, assertJsonLimits]
  cases value.assertLimits (options.limits config) with
  | error limit => simp [Except.mapError]
  | ok _ => simp [Except.mapError]

theorem assertJsonLimits_throws_iff (value : Json) :
    (∃ failure, assertJsonLimits config options value = .error failure) ↔
      (options.limits config).maxNodes < value.nodes ∨
        (options.limits config).maxDepth < value.depth := by
  have accepted := assertJsonLimits_ok_iff config options value
  cases result : assertJsonLimits config options value with
  | error failure =>
      rw [result] at accepted
      simp only [reduceCtorEq, false_iff] at accepted
      simp only [Except.error.injEq, exists_eq', true_iff]
      omega
  | ok _ =>
      have within := accepted.mp result
      simp only [reduceCtorEq, exists_false, false_iff]
      omega

theorem map_ok_iff {ε α : Type} (outcome : Except ε Unit) (value result : α) :
    outcome.map (fun _ => value) = .ok result ↔ outcome = .ok () ∧ result = value := by
  cases outcome with
  | error e => simp [Except.map]
  | ok _ => simp [Except.map, eq_comm]

theorem safeJsonParse_ok_iff (text : String) (result : Json) :
    safeJsonParse config options text = .ok result ↔
      text.utf8ByteSize ≤ options.maxBytes.getD config.maxRequestBodyBytes ∧
        ∃ parsed, jsonParse text = some parsed ∧
          assertJsonLimits config options parsed = .ok () ∧ result = parsed.cloneSanitized := by
  rw [safeJsonParse]
  split
  · simp only [reduceCtorEq, false_iff, not_and]
    omega
  · cases jsonParse text with
    | none => simp
    | some parsed =>
        simp only [map_ok_iff, Option.some.injEq, exists_eq_left']
        constructor
        · intro h
          exact ⟨by omega, h⟩
        · intro h
          exact h.2

theorem sanitizeParsed_again (value : Json) :
    (value.sanitizeParsed config).bind (Json.sanitizeParsed config) =
      value.sanitizeParsed config := by
  cases outcome : value.sanitizeParsed config with
  | error failure => rfl
  | ok result =>
      obtain ⟨within, rfl⟩ := (map_ok_iff _ _ _).mp outcome
      rw [assertJsonLimits_ok_iff] at within
      have fewer := value.nodes_clone_le
      have flatter := value.depth_clone_le
      refine (map_ok_iff _ _ _).mpr ⟨?_, value.clone_clone.symm⟩
      rw [assertJsonLimits_ok_iff]
      omega

/-- The sanitized record of the translators is the sanitized object. -/
theorem sanitizeParsed_obj (fields input : Record) :
    sanitizeParsed (({} : JsonParseOptions).limits config) fields = .ok input ↔
      (Json.obj fields).sanitizeParsed config = .ok (.obj input) := by
  rw [Json.sanitizeParsed, map_ok_iff, assertJsonLimits_ok_iff, ← Json.assertLimits_ok_iff,
    Json.cloneSanitized, Json.obj.injEq]
  constructor
  · exact sanitizeParsed_ok
  · intro h
    rw [sanitizeParsed, h.1, h.2]

/-- The limits and the keys that are left out are exact: a value is refused exactly if
it has too many nodes or levels, a text is accepted exactly if it is a value within
the limits, and the result is that value without the entries under forbidden keys. -/
theorem limits_and_stripping_exact :
    (∀ value, (∃ failure, assertJsonLimits config options value = .error failure) ↔
      (options.limits config).maxNodes < value.nodes ∨
        (options.limits config).maxDepth < value.depth) ∧
    (∀ value, Json.jsonDepth value = value.depth) ∧
    (∀ text result, safeJsonParse config options text = .ok result ↔
      text.utf8ByteSize ≤ options.maxBytes.getD config.maxRequestBodyBytes ∧
        ∃ parsed, jsonParse text = some parsed ∧
          parsed.nodes ≤ (options.limits config).maxNodes ∧
          parsed.depth ≤ (options.limits config).maxDepth ∧
          result.entries = parsed.entries.filter Json.Entry.kept) ∧
    ∀ value, (Json.sanitizeParsed config value).bind (Json.sanitizeParsed config) =
      Json.sanitizeParsed config value := by
  refine ⟨assertJsonLimits_throws_iff config options, Json.jsonDepth_eq, ?_,
    sanitizeParsed_again config⟩
  intro text result
  rw [safeJsonParse_ok_iff]
  simp only [assertJsonLimits_ok_iff, Json.eq_clone_iff, and_assoc]

end Exact

end Gateway
