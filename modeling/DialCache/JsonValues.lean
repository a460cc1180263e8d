import DialCache.JsValues
import DialCache.UnicodeText

/-!
# JSON values

JSON trees with exact numbers, the lookup and insertion of object members, and the JavaScript
value that a tree stands for. A JSON object has no `undefined` member: a name is either absent
or present with a value.
-/

namespace DialCache.JsonValues

open JsValues UnicodeText

inductive Json where
  | null
  | bool (value : Bool)
  | number (value : ℚ)
  | string (value : String)
  | array (items : List Json)
  | object (members : List (String × Json))

/-- The members of an object, in insertion order. -/
abbrev Members := List (String × Json)

variable {name : String}

variable (members : Members)

namespace Members

def get? (members : Members) (name : String) : Option Json :=
  (members.find? fun member => member.1 = name).map (·.2)

/-- Replace the member of that name, or add it at the end. -/
def insert (members : Members) (name : String) (value : Json) : Members :=
  match members with
  | [] => [(name, value)]
  | member :: rest =>
    if member.1 = name then (name, value) :: rest else member :: insert rest name value

/-- Add the member of that name if it is absent. -/
def orInsert (members : Members) (name : String) (value : Json) : Members :=
  if (get? members name).isSome then members else insert members name value

/-- Insert a value that may be missing. -/
def insert? (members : Members) (name : String) (value : Option Json) : Members :=
  match value with
  | none => members
  | some value => insert members name value

theorem get?_cons (member : String × Json) (rest : Members) (name : String) :
    get? (member :: rest) name = if member.1 = name then some member.2 else get? rest name := by
  rw [get?, List.find?_cons]
  by_cases h : member.1 = name
  · simp [h]
  · simp [h, get?]

@[simp] theorem get?_nil (name : String) : get? [] name = none := rfl

theorem get?_insert (name other : String) (value : Json) :
    get? (insert members name value) other =
      if name = other then some value else get? members other := by
  induction members with
  | nil => rw [insert, get?_cons, get?_nil]
  | cons member rest ih =>
    rw [insert]
    by_cases hmember : member.1 = name
    · rw [if_pos hmember, get?_cons, get?_cons]
      by_cases hother : name = other
      · rw [if_pos hother, if_pos hother]
      · rw [if_neg hother, if_neg hother, if_neg fun h => hother (hmember.symm.trans h)]
    · rw [if_neg hmember, get?_cons, get?_cons, ih]
      by_cases hother : member.1 = other
      · rw [if_pos hother, if_pos hother, if_neg fun h => hmember (hother.trans h.symm)]
      · rw [if_neg hother, if_neg hother]

@[simp] theorem get?_insert_self (name : String) (value : Json) :
    get? (insert members name value) name = some value := by
  rw [get?_insert, if_pos rfl]

theorem get?_insert_of_ne {other : String} (h : name ≠ other) (value : Json) :
    get? (insert members name value) other = get? members other := by
  rw [get?_insert, if_neg h]

theorem get?_insert? (name other : String) (value : Option Json) :
    get? (insert? members name value) other =
      if name = other then value.or (get? members other) else get? members other := by
  cases value with
  | none =>
    rw [insert?]
    split <;> rfl
  | some value =>
    rw [insert?, get?_insert]
    rfl

theorem get?_orInsert (name other : String) (value : Json) :
    get? (orInsert members name value) other =
      if name = other then (get? members other).or (some value) else get? members other := by
  rw [orInsert]
  by_cases hother : name = other
  · rw [if_pos hother, ← hother]
    cases h : get? members name with
    | none => simp
    | some present => simp [h]
  · rw [if_neg hother]
    split
    · rfl
    · rw [get?_insert_of_ne members hother]

end Members

namespace Json

def asObject? : Json → Option Members
  | .object members => some members
  | _ => none

def asBool? : Json → Option Bool
  | .bool value => some value
  | _ => none

def asNumber? : Json → Option ℚ
  | .number value => some value
  | _ => none

def asString? : Json → Option String
  | .string value => some value
  | _ => none

/-- The member of an object; nothing has members but an object. -/
def get? (value : Json) (name : String) : Option Json := value.asObject?.bind (Members.get? · name)

mutual
/-- The JavaScript value that a tree is parsed into. -/
def toJs : Json → JsValue
  | .null => .null
  | .bool value => .boolean value
  | .number value => .number (.finite value)
  | .string value => .string (units value.toList)
  | .array items => .array (itemsToJs items)
  | .object members => .object (membersToJs members)

def itemsToJs : List Json → List JsValue
  | [] => []
  | item :: items => toJs item :: itemsToJs items

def membersToJs : List (String × Json) → List (List UInt16 × JsValue)
  | [] => []
  | (name, value) :: members => (units name.toList, toJs value) :: membersToJs members
end

/-- A leaf that may be absent. -/
def leafToJs (leaf : Option Json) : JsValue := (leaf.map toJs).getD .undefined

theorem toJs_ne_undefined (value : Json) : toJs value ≠ .undefined := by
  cases value with
  | null => simp [toJs]
  | bool value => simp [toJs]
  | number value => simp [toJs]
  | string value => simp [toJs]
  | array items => simp [toJs]
  | object members => simp [toJs]

theorem units_toList_inj {a b : String} (h : units a.toList = units b.toList) : a = b := by
  have hlist : a.toList = b.toList := by
    rw [← scalars_units a.toList, h, scalars_units]
  exact String.toList_inj.mp hlist

/-- Names of the Basic Multilingual Plane are spelled with one unit for each character. -/
def Plain (name : String) : Prop := text name = units name.toList

theorem find_membersToJs (hname : Plain name) :
    ((membersToJs members).find? fun m => m.1 = text name).map (·.2) =
      (Members.get? members name).map toJs := by
  induction members with
  | nil => rfl
  | cons member rest ih =>
    obtain ⟨key, value⟩ := member
    rw [membersToJs, Members.get?_cons, List.find?_cons]
    by_cases hkey : key = name
    · simp [hkey, hname.symm]
    · have hunits : units key.toList ≠ text name := by
        intro h
        exact hkey (units_toList_inj (h.trans hname))
      simp only [hunits, decide_false, if_neg hkey]
      exact ih

theorem member_toJs (value : Json) (hname : Plain name) :
    (toJs value).member name = leafToJs (value.get? name) := by
  cases value with
  | object members =>
    rw [toJs, JsValue.member, find_membersToJs members hname]
    rfl
  | _ => rfl

theorem member_leafToJs (leaf : Option Json) (hname : Plain name) :
    (leafToJs leaf).member name = leafToJs (leaf.bind (·.get? name)) := by
  cases leaf with
  | none => rfl
  | some value => exact member_toJs value hname

theorem hasOwn_toJs (value : Json) (hname : Plain name) :
    (toJs value).hasOwn name = (value.get? name).isSome := by
  cases value with
  | object members =>
    rw [toJs, JsValue.hasOwn]
    have hfind := find_membersToJs members hname
    change _ = (Members.get? members name).isSome
    rw [← Option.isSome_map (f := toJs), ← hfind, Option.isSome_map, List.isSome_find?]
  | _ => rfl

theorem orElse_leafToJs (first second : Option Json) :
    (leafToJs first).orElse (leafToJs second) = leafToJs (first.or second) := by
  cases first with
  | none => rfl
  | some value =>
    have hne := toJs_ne_undefined value
    change (toJs value).orElse _ = toJs value
    generalize toJs value = js at hne
    cases js with
    | undefined => exact absurd rfl hne
    | _ => rfl

end Json

end DialCache.JsonValues
