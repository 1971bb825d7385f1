import LightWaf.Normalizer.Body

/-!
# JSON trees and their flattening

A value is flattened to one pair for each of its scalars, under the dotted
path of keys and indices that leads to it, unless its containers nest too
deep.
-/

namespace LightWaf.Normalizer

open LightWaf.Rust
open LightWaf.Core

/-! ## Trees -/

namespace Json

mutual

/-- How deep the containers of a value nest. -/
def containerDepth : Json → Nat
  | .object fields => fieldsDepth fields + 1
  | .array items => itemsDepth items + 1
  | _ => 0

/-- How deep the containers of members nest. -/
def fieldsDepth : List (Text × Json) → Nat
  | [] => 0
  | (_, value) :: rest => max value.containerDepth (fieldsDepth rest)

/-- How deep the containers of elements nest. -/
def itemsDepth : List Json → Nat
  | [] => 0
  | value :: rest => max value.containerDepth (itemsDepth rest)

end

mutual

/-- The keys of all members of a value. -/
def memberKeys : Json → List Text
  | .object fields => fieldsKeys fields
  | .array items => itemsKeys items
  | _ => []

/-- The keys of members and of what they hold. -/
def fieldsKeys : List (Text × Json) → List Text
  | [] => []
  | (key, value) :: rest => key :: (value.memberKeys ++ fieldsKeys rest)

/-- The keys below elements. -/
def itemsKeys : List Json → List Text
  | [] => []
  | value :: rest => value.memberKeys ++ itemsKeys rest

end

mutual

/-- The paths of keys and indices to the scalars of a value. -/
def scalarPaths : Json → List (List Text)
  | .object fields => fieldsPaths fields
  | .array items => itemsPaths 0 items
  | _ => [[]]

/-- The paths to the scalars of members. -/
def fieldsPaths : List (Text × Json) → List (List Text)
  | [] => []
  | (key, value) :: rest =>
      value.scalarPaths.map (key :: ·) ++ fieldsPaths rest

/-- The paths to the scalars of elements from an index on. -/
def itemsPaths (index : Nat) : List Json → List (List Text)
  | [] => []
  | value :: rest =>
      value.scalarPaths.map ((toString index).toList :: ·) ++
        itemsPaths (index + 1) rest

end

mutual

/-- The keys of the members that hold no scalar. -/
def barrenKeys : Json → List Text
  | .object fields => fieldsBarren fields
  | .array items => itemsBarren items
  | _ => []

/-- The keys among members and below them. -/
def fieldsBarren : List (Text × Json) → List Text
  | [] => []
  | (key, value) :: rest =>
      (if value.scalarPaths.isEmpty then [key] else []) ++
        value.barrenKeys ++ fieldsBarren rest

/-- The keys below elements. -/
def itemsBarren : List Json → List Text
  | [] => []
  | value :: rest => value.barrenKeys ++ itemsBarren rest

end

end Json

/-- The keys of a path joined by dots; leading empty keys leave no trace. -/
def dotted (path : List Text) : Text :=
  path.foldl joinKey []

/-- A key stands between dots, or at an end. -/
def Segment (key text : Text) : Prop :=
  ∃ front back, text = front ++ key ++ back ∧
    (front = [] ∨ front.getLast? = some '.') ∧
    (back = [] ∨ back.head? = some '.')

/-! ## Flattening -/

mutual

/-- A shallow value flattens to one pair for each scalar, under its path. -/
theorem flattenJson_paths
    (maxDepth : Nat) (value : Json) (lead : Text) (depth : Nat)
    (shallow : depth + value.containerDepth ≤ maxDepth + 1) :
    ∃ pairs, flattenJson maxDepth value lead depth = .ok pairs ∧
      pairs.map Prod.fst =
        value.scalarPaths.map fun path => path.foldl joinKey lead := by
  cases value with
  | object fields =>
      rw [Json.containerDepth] at shallow
      obtain ⟨pairs, flattened, paths⟩ := flattenFields_paths maxDepth fields
        lead (depth + 1) (by omega)
      refine ⟨pairs, ?_, ?_⟩
      · rw [flattenJson, if_neg (by omega), flattened]
      · rw [paths, Json.scalarPaths]
  | array items =>
      rw [Json.containerDepth] at shallow
      obtain ⟨pairs, flattened, paths⟩ := flattenItems_paths maxDepth items 0
        lead (depth + 1) (by omega)
      refine ⟨pairs, ?_, ?_⟩
      · rw [flattenJson, if_neg (by omega), flattened]
      · rw [paths, Json.scalarPaths]
  | null => exact ⟨_, by rw [flattenJson], by simp [Json.scalarPaths]⟩
  | bool value =>
      cases value with
      | true => exact ⟨_, by rw [flattenJson], by simp [Json.scalarPaths]⟩
      | false => exact ⟨_, by rw [flattenJson], by simp [Json.scalarPaths]⟩
  | number text => exact ⟨_, by rw [flattenJson], by simp [Json.scalarPaths]⟩
  | string text => exact ⟨_, by rw [flattenJson], by simp [Json.scalarPaths]⟩

theorem flattenFields_paths
    (maxDepth : Nat) (fields : List (Text × Json)) (lead : Text)
    (depth : Nat)
    (shallow : depth + Json.fieldsDepth fields ≤ maxDepth + 1) :
    ∃ pairs, flattenFields maxDepth fields lead depth = .ok pairs ∧
      pairs.map Prod.fst =
        (Json.fieldsPaths fields).map fun path => path.foldl joinKey lead := by
  cases fields with
  | nil => exact ⟨[], by rw [flattenFields], by simp [Json.fieldsPaths]⟩
  | cons field rest =>
      obtain ⟨key, value⟩ := field
      rw [Json.fieldsDepth] at shallow
      obtain ⟨first, flattened, paths⟩ := flattenJson_paths maxDepth value
        (joinKey lead key) depth (by omega)
      obtain ⟨others, later, laterPaths⟩ := flattenFields_paths maxDepth rest
        lead depth (by omega)
      refine ⟨first ++ others, ?_, ?_⟩
      · rw [flattenFields, flattened, later]
        rfl
      · rw [Json.fieldsPaths, List.map_append, List.map_append, paths,
          laterPaths, List.map_map]
        rfl

theorem flattenItems_paths
    (maxDepth : Nat) (items : List Json) (index : Nat) (lead : Text)
    (depth : Nat)
    (shallow : depth + Json.itemsDepth items ≤ maxDepth + 1) :
    ∃ pairs, flattenItems maxDepth items index lead depth = .ok pairs ∧
      pairs.map Prod.fst =
        (Json.itemsPaths index items).map fun path =>
          path.foldl joinKey lead := by
  cases items with
  | nil => exact ⟨[], by rw [flattenItems], by simp [Json.itemsPaths]⟩
  | cons value rest =>
      rw [Json.itemsDepth] at shallow
      obtain ⟨first, flattened, paths⟩ := flattenJson_paths maxDepth value
        (joinKey lead (toString index).toList) depth (by omega)
      obtain ⟨others, later, laterPaths⟩ := flattenItems_paths maxDepth rest
        (index + 1) lead depth (by omega)
      refine ⟨first ++ others, ?_, ?_⟩
      · simp only [flattenItems, flattened, later]
        rfl
      · rw [Json.itemsPaths, List.map_append, List.map_append, paths,
          laterPaths, List.map_map]
        rfl

end

mutual

/-- A value that flattens has its containers nested within the limit. -/
theorem shallow_of_flattenJson
    (maxDepth : Nat) (value : Json) (lead : Text) (depth : Nat)
    {pairs : List (Text × Text)}
    (flattened : flattenJson maxDepth value lead depth = .ok pairs) :
    value.containerDepth = 0 ∨
      depth + value.containerDepth ≤ maxDepth + 1 := by
  cases value with
  | object fields =>
      rw [flattenJson] at flattened
      split_ifs at flattened with deep
      have inner := shallow_of_flattenFields maxDepth fields lead (depth + 1)
        flattened
      rw [Json.containerDepth]
      omega
  | array items =>
      rw [flattenJson] at flattened
      split_ifs at flattened with deep
      have inner := shallow_of_flattenItems maxDepth items 0 lead (depth + 1)
        flattened
      rw [Json.containerDepth]
      omega
  | null => exact Or.inl (by simp [Json.containerDepth])
  | bool value => exact Or.inl (by simp [Json.containerDepth])
  | number text => exact Or.inl (by simp [Json.containerDepth])
  | string text => exact Or.inl (by simp [Json.containerDepth])

theorem shallow_of_flattenFields
    (maxDepth : Nat) (fields : List (Text × Json)) (lead : Text)
    (depth : Nat) {pairs : List (Text × Text)}
    (flattened : flattenFields maxDepth fields lead depth = .ok pairs) :
    Json.fieldsDepth fields = 0 ∨
      depth + Json.fieldsDepth fields ≤ maxDepth + 1 := by
  cases fields with
  | nil => exact Or.inl (by rw [Json.fieldsDepth])
  | cons field rest =>
      obtain ⟨key, value⟩ := field
      rw [flattenFields] at flattened
      obtain ⟨first, here, flattened⟩ := ok_of_bind_ok flattened
      obtain ⟨others, later, -⟩ := ok_of_bind_ok flattened
      have head := shallow_of_flattenJson maxDepth value _ depth here
      have tail := shallow_of_flattenFields maxDepth rest lead depth later
      rw [Json.fieldsDepth]
      omega

theorem shallow_of_flattenItems
    (maxDepth : Nat) (items : List Json) (index : Nat) (lead : Text)
    (depth : Nat) {pairs : List (Text × Text)}
    (flattened : flattenItems maxDepth items index lead depth = .ok pairs) :
    Json.itemsDepth items = 0 ∨
      depth + Json.itemsDepth items ≤ maxDepth + 1 := by
  cases items with
  | nil => exact Or.inl (by rw [Json.itemsDepth])
  | cons value rest =>
      rw [flattenItems] at flattened
      obtain ⟨first, here, flattened⟩ := ok_of_bind_ok flattened
      obtain ⟨others, later, -⟩ := ok_of_bind_ok flattened
      have head := shallow_of_flattenJson maxDepth value _ depth here
      have tail := shallow_of_flattenItems maxDepth rest (index + 1) lead depth
        later
      rw [Json.itemsDepth]
      omega

end

/-! ## Segments -/

/-- Behind a nonempty lead every key comes after a dot. -/
theorem foldl_joinKey
    (path : List Text) {lead : Text} (nonempty : lead ≠ []) :
    path.foldl joinKey lead = lead ++ path.flatMap ('.' :: ·) := by
  induction path generalizing lead with
  | nil => simp
  | cons key rest induction =>
      have joined : joinKey lead key = lead ++ '.' :: key :=
        if_neg nonempty
      rw [List.foldl_cons, joined, induction (by simp)]
      simp

/-- A nonempty key is a segment of every path it stands in. -/
theorem segment_dotted
    {key : Text} {path : List Text} (nonempty : key ≠ [])
    (member : key ∈ path) :
    Segment key (dotted path) := by
  obtain ⟨before, after, rfl⟩ := List.append_of_mem member
  have here : ∃ front, joinKey (before.foldl joinKey []) key = front ++ key ∧
      (front = [] ∨ front.getLast? = some '.') := by
    rw [joinKey]
    split_ifs with start
    · exact ⟨[], rfl, Or.inl rfl⟩
    · exact ⟨before.foldl joinKey [] ++ ['.'], by simp, Or.inr (by simp)⟩
  obtain ⟨front, joined, opening⟩ := here
  refine ⟨front, after.flatMap ('.' :: ·), ?_, opening, ?_⟩
  · rw [dotted, List.foldl_append, List.foldl_cons, joined,
      foldl_joinKey after (by simp [nonempty])]
  · cases after with
    | nil => exact Or.inl rfl
    | cons next rest => exact Or.inr rfl

mutual

/-- A member that holds a scalar has its key in that scalar's path. -/
theorem Json.key_mem_path
    (value : Json) {key : Text} (member : key ∈ value.memberKeys)
    (fertile : key ∉ value.barrenKeys) :
    ∃ path ∈ value.scalarPaths, key ∈ path := by
  cases value with
  | object fields =>
      rw [Json.memberKeys] at member
      rw [Json.barrenKeys] at fertile
      rw [Json.scalarPaths]
      exact Json.key_mem_fieldsPath fields member fertile
  | array items =>
      rw [Json.memberKeys] at member
      rw [Json.barrenKeys] at fertile
      rw [Json.scalarPaths]
      exact Json.key_mem_itemsPath items 0 member fertile
  | null => simp [Json.memberKeys] at member
  | bool value => simp [Json.memberKeys] at member
  | number text => simp [Json.memberKeys] at member
  | string text => simp [Json.memberKeys] at member

theorem Json.key_mem_fieldsPath
    (fields : List (Text × Json)) {key : Text}
    (member : key ∈ Json.fieldsKeys fields)
    (fertile : key ∉ Json.fieldsBarren fields) :
    ∃ path ∈ Json.fieldsPaths fields, key ∈ path := by
  cases fields with
  | nil => simp [Json.fieldsKeys] at member
  | cons field rest =>
      obtain ⟨name, value⟩ := field
      rw [Json.fieldsKeys] at member
      rw [Json.fieldsBarren, List.mem_append, List.mem_append, not_or,
        not_or] at fertile
      rw [Json.fieldsPaths]
      rcases List.mem_cons.mp member with rfl | inside
      · cases paths : value.scalarPaths with
        | nil => simp [paths] at fertile
        | cons path others => exact ⟨key :: path, by simp, by simp⟩
      · rcases List.mem_append.mp inside with below | later
        · obtain ⟨path, found, holds⟩ := value.key_mem_path below fertile.1.2
          refine ⟨name :: path, ?_, by simp [holds]⟩
          exact List.mem_append_left _ (List.mem_map_of_mem found)
        · obtain ⟨path, found, holds⟩ :=
            Json.key_mem_fieldsPath rest later fertile.2
          exact ⟨path, List.mem_append_right _ found, holds⟩

theorem Json.key_mem_itemsPath
    (items : List Json) (index : Nat) {key : Text}
    (member : key ∈ Json.itemsKeys items)
    (fertile : key ∉ Json.itemsBarren items) :
    ∃ path ∈ Json.itemsPaths index items, key ∈ path := by
  cases items with
  | nil => simp [Json.itemsKeys] at member
  | cons value rest =>
      rw [Json.itemsKeys] at member
      rw [Json.itemsBarren, List.mem_append, not_or] at fertile
      rw [Json.itemsPaths]
      rcases List.mem_append.mp member with below | later
      · obtain ⟨path, found, holds⟩ := value.key_mem_path below fertile.1
        refine ⟨(toString index).toList :: path, ?_, by simp [holds]⟩
        exact List.mem_append_left _ (List.mem_map_of_mem found)
      · obtain ⟨path, found, holds⟩ :=
          Json.key_mem_itemsPath rest (index + 1) later fertile.2
        exact ⟨path, List.mem_append_right _ found, holds⟩

end

end LightWaf.Normalizer
