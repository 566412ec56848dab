import HotAI.Override.Operations

/-! # What `prune_objects` removes

An object is tested by its own fields and, where it has no value at the path of a condition, by the context of the
request. Exactly the objects that match are removed if the context changes the answer for none. -/
namespace HotAI.Override
open HotAI.Lib

variable (lib : Libraries)

/-- The object satisfies the conditions by its own fields. -/
def ownMatch (options : PruneObjectsOptions) (fields : Fields) : Bool :=
  (shouldPruneObject lib fields options none).toOption.getD false

def isMatch (p : Fields → Bool) : Json → Bool
  | .obj fields => p fields
  | _ => false

/-! The value without the objects below it that match. An object that is kept is looked into if `recursive`. -/

mutual

def withoutObjects (p : Fields → Bool) (recursive : Bool) : Json → Json
  | .arr items => .arr (withoutItems p recursive items)
  | .obj fields => .obj (if recursive then withoutFields p recursive fields else fields)
  | value => value

def withoutItems (p : Fields → Bool) (recursive : Bool) : List Json → List Json
  | [] => []
  | item :: rest =>
      if isMatch p item then withoutItems p recursive rest
      else withoutObjects p recursive item :: withoutItems p recursive rest

def withoutFields (p : Fields → Bool) (recursive : Bool) : List (String × Json) → List (String × Json)
  | [] => []
  | (key, value) :: rest =>
      if isMatch p value then withoutFields p recursive rest
      else (key, withoutObjects p recursive value) :: withoutFields p recursive rest

end

/-! The fields of the objects below a value. -/

mutual

def objectsBelow : Json → List Fields
  | .arr items => objectsOfItems items
  | .obj fields => objectsOfFields fields
  | _ => []

def objectsOfItems : List Json → List Fields
  | [] => []
  | item :: rest => item.asObject.toList ++ objectsBelow item ++ objectsOfItems rest

def objectsOfFields : List (String × Json) → List Fields
  | [] => []
  | (_, value) :: rest => value.asObject.toList ++ objectsBelow value ++ objectsOfFields rest

end

/-! ## Paths -/

def keysOf (path : String) : List (List Char) := path.toList.splitOn '.'

/-- Neither path leads to a value inside that of the other. -/
def Apart (path other : String) : Prop := ¬keysOf path <+: keysOf other ∧ ¬keysOf other <+: keysOf path

variable {lib} {options : PruneObjectsOptions} {contextJSON : Option Json}

/-- The context does not change whether the object is dropped. -/
def Alike (lib : Libraries) (options : PruneObjectsOptions) (contextJSON : Option Json) (fields : Fields) : Prop :=
  ∀ drop, shouldPruneObject lib fields options contextJSON = .ok drop → ownMatch lib options fields = drop

mutual

theorem pruneObjectsNode_ok {isRoot : Bool} {next : Option Json} (node : Json)
    (hself : isRoot = false → ∀ fields ∈ node.asObject.toList, Alike lib options contextJSON fields)
    (h : ∀ fields ∈ objectsBelow node, Alike lib options contextJSON fields)
    (hok : pruneObjectsNode lib options contextJSON isRoot node = .ok next) :
    next = if isMatch (ownMatch lib options) node && !isRoot then none
      else some (withoutObjects (ownMatch lib options) options.recursive node) := by
  cases node with
  | null | bool | num | str =>
    rw [pruneObjectsNode] at hok
    · cases hok
      rfl
    all_goals simp
  | arr items =>
    obtain ⟨result, hitems, hnext⟩ := bind_ok (by rwa [pruneObjectsNode] at hok)
    rw [objectsBelow] at h
    rw [pruneItems_ok items h hitems] at hnext
    cases hnext
    rfl
  | obj fields =>
    obtain ⟨drop, hdrop, hnext⟩ := bind_ok (by rwa [pruneObjectsNode] at hok)
    -- the answer for the root is not used
    have hgone : (isMatch (ownMatch lib options) (.obj fields) && !isRoot) = (drop && !isRoot) := by
      cases isRoot with
      | true => simp
      | false => rw [isMatch, hself rfl fields (List.mem_singleton_self _) drop hdrop]
    rw [hgone]
    by_cases hgone : (drop && !isRoot) = true
    · simp_all
    · rw [if_neg hgone] at hnext ⊢
      rw [withoutObjects]
      split at hnext
      · obtain ⟨result, hfields, hnext⟩ := bind_ok hnext
        rw [objectsBelow] at h
        rw [pruneFields_ok fields h hfields] at hnext
        cases hnext
        simp_all
      · simp_all

theorem pruneItems_ok {result : List Json} (items : List Json)
    (h : ∀ fields ∈ objectsOfItems items, Alike lib options contextJSON fields)
    (hok : pruneItems lib options contextJSON items = .ok result) :
    result = withoutItems (ownMatch lib options) options.recursive items := by
  cases items with
  | nil =>
    cases hok
    rfl
  | cons item rest =>
    rw [objectsOfItems, List.forall_mem_append, List.forall_mem_append] at h
    obtain ⟨next, hnext, hok⟩ := bind_ok (by rwa [pruneItems] at hok)
    obtain ⟨others, hothers, hok⟩ := bind_ok hok
    rw [pruneObjectsNode_ok item (fun _ => h.1.1) h.1.2 hnext, pruneItems_ok rest h.2 hothers] at hok
    cases hok
    rw [withoutItems]
    cases isMatch (ownMatch lib options) item <;> rfl

theorem pruneFields_ok {result : Fields} (fields : Fields)
    (h : ∀ inner ∈ objectsOfFields fields, Alike lib options contextJSON inner)
    (hok : pruneFields lib options contextJSON fields = .ok result) :
    result = withoutFields (ownMatch lib options) options.recursive fields := by
  match fields with
  | [] =>
    cases hok
    rfl
  | (key, value) :: rest =>
    rw [objectsOfFields, List.forall_mem_append, List.forall_mem_append] at h
    obtain ⟨next, hnext, hok⟩ := bind_ok (by rwa [pruneFields] at hok)
    obtain ⟨others, hothers, hok⟩ := bind_ok hok
    rw [pruneObjectsNode_ok value (fun _ => h.1.1) h.1.2 hnext, pruneFields_ok rest h.2 hothers] at hok
    cases hok
    rw [withoutFields]
    cases isMatch (ownMatch lib options) value <;> rfl

end

end HotAI.Override
