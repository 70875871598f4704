/-
# What a settings file holds

The values `json.loads` of `app/config.py` gives: Python's own `None`, `bool`,
`int`, `float`, `str`, `list` and `dict`, nested at will.  An `int` is unbounded;
a `float` may be `Infinity` or `NaN`, which the parser accepts.  A `dict` is the
list of its entries in their order, and `UniqueKeys` says that no dictionary of a
value, at any depth, has a key twice, as none that Python builds has.
-/

import Mathlib.Data.Rat.Defs
import TtsPool.Support.Entries

namespace TtsPool

/-- A Python `float`; a finite one is the number it stands for. -/
inductive PyFloat where
  | finite (value : ℚ)
  | infinity (negative : Bool)
  | nan
deriving DecidableEq

/-- A parsed JSON value. -/
inductive Json where
  | null
  | bool (value : Bool)
  | int (value : ℤ)
  | float (value : PyFloat)
  | str (value : String)
  | list (items : List Json)
  | object (entries : List (String × Json))

namespace Json

/-- `isinstance(value, dict)`. -/
def isObject : Json → Bool
  | .object _ => true
  | _ => false

mutual
/-- No dictionary in the value has a key twice. -/
def UniqueKeys : Json → Prop
  | .list items => UniqueKeysAll items
  | .object entries => (entries.map Prod.fst).Nodup ∧ UniqueKeysEntries entries
  | _ => True

def UniqueKeysAll : List Json → Prop
  | [] => True
  | item :: items => item.UniqueKeys ∧ UniqueKeysAll items

def UniqueKeysEntries : List (String × Json) → Prop
  | [] => True
  | entry :: entries => UniqueKeysEntry entry ∧ UniqueKeysEntries entries

def UniqueKeysEntry : String × Json → Prop
  | (_, value) => value.UniqueKeys
end

theorem uniqueKeysEntries_iff {entries : List (String × Json)} :
    UniqueKeysEntries entries ↔ ∀ entry ∈ entries, entry.2.UniqueKeys := by
  induction entries with
  | nil => simp [UniqueKeysEntries]
  | cons entry entries ih =>
    obtain ⟨key, value⟩ := entry
    rw [UniqueKeysEntries, UniqueKeysEntry, ih, List.forall_mem_cons]

/-- A value that is no dictionary, and a dictionary from the values in it. -/
@[elab_as_elim]
theorem objectInduction {motive : Json → Prop} (value : ∀ value, value.isObject = false → motive value)
    (object : ∀ entries, (∀ entry ∈ entries, motive entry.2) → motive (.object entries)) : ∀ v, motive v
  | .object entries => object entries fun entry hmem =>
    have : sizeOf entry.2 < 1 + sizeOf entries := by
      have hlt := List.sizeOf_lt_of_mem hmem
      obtain ⟨key, v⟩ := entry
      simp only [Prod.mk.sizeOf_spec] at hlt ⊢
      omega
    objectInduction value object entry.2
  | .null => value _ rfl
  | .bool _ => value _ rfl
  | .int _ => value _ rfl
  | .float _ => value _ rfl
  | .str _ => value _ rfl
  | .list _ => value _ rfl
termination_by v => sizeOf v

/-- What a value has at a path of keys. -/
def atPath : List String → Json → Option Json
  | [], value => some value
  | key :: path, .object entries => (entries.lookup key).bind (atPath path)
  | _ :: _, _ => none

@[simp] theorem atPath_nil (value : Json) : value.atPath [] = some value := by rw [atPath]

theorem atPath_cons (key : String) (path : List String) (entries : List (String × Json)) :
    (Json.object entries).atPath (key :: path) = (entries.lookup key).bind (atPath path) := by rw [atPath]

theorem atPath_cons_of_not_object {value : Json} (h : value.isObject = false) (key : String) (path : List String) :
    value.atPath (key :: path) = none := by
  cases value <;> first | rfl | cases h

theorem atPath_append (start rest : List String) (value : Json) :
    value.atPath (start ++ rest) = (value.atPath start).bind (atPath rest) := by
  induction start generalizing value with
  | nil => rw [List.nil_append, atPath_nil, Option.bind_some]
  | cons key start ih =>
    cases hobject : value.isObject with
    | false => rw [List.cons_append, atPath_cons_of_not_object hobject, atPath_cons_of_not_object hobject]; rfl
    | true =>
      cases value with
      | object entries =>
        rw [List.cons_append, atPath_cons, atPath_cons, Option.bind_assoc]
        exact congrArg _ (funext ih)
      | _ => cases hobject

/-- Behind what is no dictionary there is nothing. -/
theorem atPath_of_prefix {start path : List String} {value stop : Json} (hstart : start <+: path)
    (hne : start ≠ path) (hstop : value.atPath start = some stop) (hobject : stop.isObject = false) :
    value.atPath path = none := by
  obtain ⟨rest, rfl⟩ := hstart
  cases rest with
  | nil => exact absurd (List.append_nil start).symm hne
  | cons key rest => rw [atPath_append, hstop, Option.bind_some, atPath_cons_of_not_object hobject]

end Json

/-- A `dict` that `json.loads` gives. -/
@[ext]
structure JsonObject where
  entries : List (String × Json)
  uniqueKeys : (Json.object entries).UniqueKeys

namespace JsonObject

/-- The dictionary as a value. -/
abbrev json (d : JsonObject) : Json := .object d.entries

/-- `{}`. -/
def empty : JsonObject := ⟨[], List.nodup_nil, trivial⟩

/-- What a dictionary has at a path of keys. -/
def atPath (d : JsonObject) (path : List String) : Option Json := d.json.atPath path

end JsonObject
end TtsPool
