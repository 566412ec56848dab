import HotAI.Lib.JsonText
import HotAI.Lib.Lines
import HotAI.Routing.CacheSync

/-! # Channels with several keys (`model/channel.go`)

The keys of a channel are one text, lines or the elements of a JSON array. What is known about the
single keys is kept by their position in that text. -/
namespace HotAI.Channels
open HotAI.Lib HotAI.Routing List

/-- `MultiKeyMode`; any other text is treated alike. -/
inductive MultiKeyMode where
  | random
  | polling
  | other
deriving DecidableEq, Repr

structure ChannelInfo where
  isMultiKey : Bool
  multiKeySize : ℤ
  multiKeyStatusList : ℕ → Option ChannelStatus
  multiKeyDisabledReason : ℕ → Option String
  multiKeyDisabledTime : ℕ → Option ℤ
  multiKeyPollingIndex : ℤ
  multiKeyMode : MultiKeyMode

/-- A key without an entry is enabled. -/
def ChannelInfo.getStatus (info : ChannelInfo) (i : ℕ) : ChannelStatus :=
  (info.multiKeyStatusList i).getD .enabled

structure KeyedChannel where
  status : ChannelStatus
  key : String
  info : ChannelInfo

def jsonKeys (key : String) : Option (List String) :=
  let trimmed := trimSpace key
  if hasPrefix trimmed "[" then JsonText.rawArray trimmed else none

def lineKeys (key : String) : List String := split (trimChar '\n' key) "\n"

def getKeys (key : String) : List String :=
  if key = "" then [] else (jsonKeys key).getD (lineKeys key)

/-! ## Joining keys again -/

/-- Joined by line breaks the keys are read back: none has one, the first and last are not empty, the text is no JSON array.
-/
def Rejoins (keys : List String) : Prop :=
  keys ≠ [] ∧ ((∀ key ∈ keys, '\n' ∉ key.toList) ∧ keys.head? ≠ some "" ∧ keys.getLast? ≠ some "") ∧
    jsonKeys ("\n".intercalate keys) = none

instance (keys : List String) : Decidable (Rejoins keys) := inferInstanceAs (Decidable (_ ∧ _ ∧ _))

theorem length_intercalate (x : Char) (keys : List (List Char)) :
    ([x].intercalate keys).length = (keys.map List.length).sum + (keys.length - 1) := by
  induction keys with
  | nil => rfl
  | cons key rest ih =>
    cases rest with
    | nil => simp
    | cons next rest =>
      rw [intercalate_cons_cons, length_append, length_append, ih]
      simp only [length_cons, length_nil, map_cons, sum_cons]
      omega

theorem jsonKeys_ne {keys : List String} : jsonKeys ("\n".intercalate keys) ≠ some keys := by
  intro h
  unfold jsonKeys at h
  dsimp only at h
  split at h
  · have hlen := JsonText.length_rawArray_lt h
    have htrim := length_trimSpace_le ("\n".intercalate keys)
    have hjoin : ("\n".intercalate keys).length = (keys.map String.length).sum + (keys.length - 1) := by
      rw [← String.length_toList, String.toList_intercalate]
      refine (length_intercalate '\n' _).trans ?_
      simp only [map_map, length_map, Function.comp_def, String.length_toList]
    omega
  · cases h

theorem eq_of_intercalate_eq_empty {keys : List String} (hne : keys ≠ []) (h : "\n".intercalate keys = "") :
    keys = [""] := by
  obtain ⟨first, rest, rfl⟩ := exists_cons_of_ne_nil hne
  have hlist := congrArg String.toList h
  cases rest with
  | nil =>
    rw [String.toList_inj.mp (hlist.symm.trans (by simp) : "".toList = first.toList)]
  | cons next rest =>
    simp at hlist

theorem getKeys_intercalate_iff {keys : List String} (hne : keys ≠ []) :
    getKeys ("\n".intercalate keys) = keys ↔ Rejoins keys := by
  have hsep : "\n".toList = ['\n'] := rfl
  by_cases htext : "\n".intercalate keys = ""
  · rw [htext]
    constructor
    · intro h
      exact absurd h.symm hne
    · rintro ⟨-, ⟨-, hhead, -⟩, -⟩
      rw [eq_of_intercalate_eq_empty hne htext] at hhead
      exact absurd rfl hhead
  · rw [getKeys, if_neg htext]
    constructor
    · intro h
      have hjson : jsonKeys ("\n".intercalate keys) = none := by
        cases hkeys : jsonKeys ("\n".intercalate keys) with
        | none => rfl
        | some items =>
          rw [hkeys] at h
          exact absurd (h ▸ hkeys) jsonKeys_ne
      rw [hjson, Option.getD_none] at h
      exact ⟨hne, (split_trimChar_intercalate_iff hsep hne htext).mp h, hjson⟩
    · rintro ⟨-, hlines, hjson⟩
      rw [hjson, Option.getD_none]
      exact (split_trimChar_intercalate_iff hsep hne htext).mpr hlines

end HotAI.Channels
