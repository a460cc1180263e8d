import DialCache.DecimalText
import DialCache.DifferenceWalks
import DialCache.JsonReaders
import DialCache.PropertyOrder
import DialCache.SemanticEquality
import DialCache.SurrogateScans
import DialCache.Utf8Repair

/-!
# Portable JSON text

`JSONCodec[any]` of the Go port writes a Go value as the text that `JSON.stringify` gives for
the same value built in ECMAScript, and reads it back. Member lists may repeat a name, and
`Absent` stands for `undefined`. How a number is spelled and read is left to the host.
-/

namespace DialCache.PortableJson

open DecimalText InsertionMaps JsonGrammar JsonReaders JsonTrees KeyAgreement PropertyOrder
  SemanticEquality SurrogateScans UnicodeText Utf8Repair Utf8Replacement

abbrev Text := List Char

/-! ### JSON.stringify -/

/-- An ECMAScript value without methods. The own properties of an object are in the order in which
they were defined. -/
inductive Js (ν : Type) where
  | undefined
  | null
  | bool (value : Bool)
  | number (value : ν)
  | string (value : Text)
  | array (items : List (Js ν))
  | object (properties : List (Text × Js ν))

def unicodeEscape (c : Char) : Text :=
  '\\' :: 'u' :: [c.toNat / 4096 % 16, c.toNat / 256 % 16, c.toNat / 16 % 16, c.toNat % 16].map
    Nat.digitChar

/-- One code point in `QuoteJSONString`. -/
def escapeChar (c : Char) : Text :=
  if c = '\x08' then ['\\', 'b']
  else if c = '\t' then ['\\', 't']
  else if c = '\n' then ['\\', 'n']
  else if c = '\x0c' then ['\\', 'f']
  else if c = '\r' then ['\\', 'r']
  else if c = '"' then ['\\', '"']
  else if c = '\\' then ['\\', '\\']
  else if c.toNat < 0x20 then unicodeEscape c
  else [c]

def quoteJsonString (value : Text) : Text := '"' :: (value.flatMap escapeChar ++ ['"'])

/-- The number of an array index: a canonical numeral below `2 ^ 32 - 1`. -/
def arrayIndexOf (name : Text) : Option ℕ :=
  let digits := name.map Char.toNat
  if isDigits digits ∧ decimal (value digits) = digits ∧ value digits < 4294967295 then
    some (value digits)
  else none

/-- The entries that have a value. -/
def present {σ α : Type} (entries : List (σ × Option α)) : List (σ × α) :=
  entries.filterMap fun e => e.2.map fun v => (e.1, v)

theorem sizeOf_item {ν : Type} {item : Js ν} {items : List (Js ν)} (h : item ∈ items) :
    sizeOf item < sizeOf (Js.array items) := by
  have := List.sizeOf_lt_of_mem h
  simp only [Js.array.sizeOf_spec]
  omega

theorem sizeOf_property {ν : Type} {property : Text × Js ν} {properties : List (Text × Js ν)}
    (h : property ∈ properties) : sizeOf property.2 < sizeOf (Js.object properties) := by
  have := sizeOf_snd h
  rw [Js.object.sizeOf_spec]
  omega

/-- `JSON.stringify`; `none` is `undefined`. -/
def stringify {ν : Type} (numberText : ν → Text) : Js ν → Option Text
  | .undefined => none
  | .null => some ['n', 'u', 'l', 'l']
  | .bool true => some ['t', 'r', 'u', 'e']
  | .bool false => some ['f', 'a', 'l', 's', 'e']
  | .number value => some (numberText value)
  | .string value => some (quoteJsonString value)
  | .array items =>
    let parts := items.map fun item => (stringify numberText item).getD ['n', 'u', 'l', 'l']
    some ('[' :: (commaJoin ',' parts ++ [']']))
  | .object properties =>
    let texts := properties.map fun property => (property.1, stringify numberText property.2)
    let parts := (present (ownOrder arrayIndexOf texts)).map fun member =>
      quoteJsonString member.1 ++ ':' :: member.2
    some ('\x7b' :: (commaJoin ',' parts ++ ['\x7d']))
termination_by value => sizeOf value
decreasing_by
  · exact sizeOf_item ‹_›
  · exact sizeOf_property ‹_›

/-! ### The encoder -/

/-- How the host spells a finite nonzero number, and reads one. -/
structure NumberHost where
  marshal : Float64 → GoString
  parseFloat : GoString → Float64

namespace Go

def numberString (host : NumberHost) (x : Float64) : GoString :=
  if x.isNaN then [0x4E, 0x61, 0x4E]
  else if x = .infinite false then [0x49, 0x6E, 0x66, 0x69, 0x6E, 0x69, 0x74, 0x79]
  else if x = .infinite true then [0x2D, 0x49, 0x6E, 0x66, 0x69, 0x6E, 0x69, 0x74, 0x79]
  else if x.isZero then [0x30]
  else host.marshal x

/-- One rune in the loop of `quoteJSON`. -/
def escapeRune (r : Char) : Bytes :=
  if r = '"' ∨ r = '\\' then [0x5C, UInt8.ofNat r.toNat]
  else if r = '\x08' then [0x5C, 0x62]
  else if r = '\x0c' then [0x5C, 0x66]
  else if r = '\n' then [0x5C, 0x6E]
  else if r = '\r' then [0x5C, 0x72]
  else if r = '\t' then [0x5C, 0x74]
  else if r.toNat < 0x20 then
    0x5C :: 0x75 :: [r.toNat / 4096 % 16, r.toNat / 256 % 16, r.toNat / 16 % 16, r.toNat % 16].map
      fun digit => UInt8.ofNat (Nat.digitChar digit).toNat
  else String.utf8EncodeChar r

def quoteJson (value : GoString) : Bytes :=
  0x22 :: ((decodeUtf8 (replacementUtf8 value)).flatMap escapeRune ++ [0x22])

/-- `strconv.ParseUint(name, 10, 32)`. -/
def parseUint (name : GoString) : Option ℕ :=
  if isDigits (codes name) ∧ value (codes name) < 2 ^ 32 then some (value (codes name)) else none

def arrayIndex (name : GoString) : Option ℕ :=
  match parseUint name with
  | some n => if n < 4294967295 ∧ decimalBytes n = name then some n else none
  | none => none

section AppendObject

variable {α : Type}

/-- One turn of the loop that collects `unique`, with its map `indices`. -/
def collect (state : List (GoString × α) × InsertionMap GoString ℕ) (member : GoString × α) :
    List (GoString × α) × InsertionMap GoString ℕ :=
  match state.2.get member.1 with
  | some index => (state.1.set index member, state.2)
  | none => (state.1 ++ [member], state.2.set member.1 state.1.length)

def uniqueMembers (object : List (GoString × α)) : List (GoString × α) :=
  (object.foldl collect ([], .empty)).1

/-- `appendObject`, on members with what their values are written as; `Absent` is `none`. A value
that was replaced leaves no trace. -/
def appendObject (object : List (GoString × Option (Except String Bytes))) :
    Except String Bytes := do
  let sorted := (uniqueMembers object).mergeSort fun a b => !indexLess arrayIndex b a
  let parts ← (present sorted).mapM fun member => do
    let text ← member.2
    return quoteJson member.1 ++ 0x3A :: text
  return 0x7B :: (commaJoin 0x2C parts ++ [0x7D])

end AppendObject

def isAbsent : Value → Bool
  | .absent => true
  | _ => false

end Go

theorem sizeOf_sliceItem {item : Value} {bytes : Bool} {base : ℕ} {items : List Value}
    (h : item ∈ items) : sizeOf item < sizeOf (Value.slice bytes base items) := by
  have := List.sizeOf_lt_of_mem h
  simp only [Value.slice.sizeOf_spec]
  omega

namespace Go

/-- `appendJSON` without marshalers; `seen` holds the containers around the value. -/
def appendJson (host : NumberHost) : List Visit → Value → Except String Bytes
  | _, .nil => return word none
  | _, .absent => return word none
  | _, .bool value => return word (some value)
  | _, .number value =>
    match value with
    | .finite _ _ => return numberString host value
    | _ => return word none
  | _, .string value => return quoteJson value
  | _, .nilSlice false => return word none
  | _, .nilSlice true =>
    appendObject [([0x74, 0x79, 0x70, 0x65], some (.ok (quoteJson [0x42, 0x75, 0x66, 0x66, 0x65, 0x72]))),
      ([0x64, 0x61, 0x74, 0x61], some (.ok [0x5B, 0x5D]))]
  | seen, .slice bytes base items => do
    if bytes then
      let data := do
        let parts ← (items.map fun item => appendJson host seen item).mapM id
        return 0x5B :: (commaJoin 0x2C parts ++ [0x5D])
      appendObject
        [([0x74, 0x79, 0x70, 0x65], some (.ok (quoteJson [0x42, 0x75, 0x66, 0x66, 0x65, 0x72]))),
          ([0x64, 0x61, 0x74, 0x61], some data)]
    else if ⟨.slice, base⟩ ∈ seen then throw "cyclic JSON array"
    else
      let parts ← (items.map fun item => appendJson host (⟨.slice, base⟩ :: seen) item).mapM id
      return 0x5B :: (commaJoin 0x2C parts ++ [0x5D])
  | _, .nilMap => return word none
  | seen, .map address members =>
    if ⟨.map, address⟩ ∈ seen then throw "cyclic JSON object"
    else
      let object := members.map fun member => (member.1,
        if isAbsent member.2 then none else some (appendJson host (⟨.map, address⟩ :: seen) member.2))
      appendObject (object.mergeSort fun a b => !Go.utf16Less b.1 a.1)
  | seen, .object base members =>
    if ⟨.slice, base⟩ ∈ seen then throw "cyclic JSON object"
    else appendObject (members.map fun member => (member.1,
      if isAbsent member.2 then none else some (appendJson host (⟨.slice, base⟩ :: seen) member.2)))
  | _, .nilPointer => return word none
  | seen, .pointer address target =>
    if ⟨.pointer, address⟩ ∈ seen then throw "cyclic JSON value"
    else appendJson host (⟨.pointer, address⟩ :: seen) target
termination_by _ value => sizeOf value
decreasing_by
  · exact sizeOf_sliceItem ‹_›
  · exact sizeOf_sliceItem ‹_›
  · have := sizeOf_snd ‹_›
    simp only [Value.map.sizeOf_spec]
    omega
  · have := sizeOf_snd ‹_›
    simp only [Value.object.sizeOf_spec]
    omega
  · simp only [Value.pointer.sizeOf_spec]
    omega

def jsonUndefinedSentinel : GoString := "__dialcache_json_undefined_v1__".toUTF8.toList

def encode (host : NumberHost) (value : Value) : Except String GoString :=
  if isAbsent value then .ok jsonUndefinedSentinel else appendJson host [] value

/-! ### The decoder -/

/-- The value that a parsed text stands for: numbers are read, and of the members with one name a
map keeps the last. -/
def jsonNumbers (host : NumberHost) : Tree → Json GoString Float64
  | .null => .null
  | .bool value => .bool value
  | .number spelling => .number (host.parseFloat spelling)
  | .string value => .string value
  | .array items => .array (items.map (jsonNumbers host))
  | .object members =>
    .object (members.map fun member => (member.1, jsonNumbers host member.2)).reverse
termination_by value => sizeOf value
decreasing_by
  · exact Json.sizeOf_item ‹_›
  · exact Json.sizeOf_member ‹_›

inductive Decoded where
  | absent
  | value (tree : Json GoString Float64)

/-- How deep `encoding/json` reads arrays and objects. -/
def maxNestingDepth : ℕ := 10000

/-- `Decode` of `JSONCodec[any]`. -/
def decode (host : NumberHost) (payload : GoString) : Except String Decoded :=
  let raw := replacementUtf8 payload
  if raw = jsonUndefinedSentinel then .ok .absent
  else
    match readValue maxNestingDepth raw with
    | none => .error "invalid JSON"
    | some (parsed, rest) =>
      if skipSpace rest ≠ [] then .error "trailing JSON content"
      else
        match validateJsonScalarStrings raw with
        | .ok none => .ok (.value (jsonNumbers host parsed))
        | .ok (some message) => .error message
        | .error _ => .error "index out of range"

end Go

/-! ### What is written -/

/-- The value in ECMAScript: the members are defined one after the other, those of a map in the
order of their names. -/
def toJs : Value → Js Float64
  | .absent => .undefined
  | .bool value => .bool value
  | .number value => .number value
  | .string value => .string (decodeUtf8 value)
  | .slice _ _ items => .array (items.map toJs)
  | .map _ members =>
    let defined := (members.map fun member => (decodeUtf8 member.1, toJs member.2)).mergeSort
      fun a b => unitKey a.1 ≤ unitKey b.1
    .object (assign defined).entries
  | .object _ members =>
    .object (assign (members.map fun member => (decodeUtf8 member.1, toJs member.2))).entries
  | .pointer _ target => toJs target
  | .nil | .nilSlice _ | .nilMap | .nilPointer => .null
termination_by value => sizeOf value
decreasing_by
  · exact sizeOf_sliceItem ‹_›
  · have := sizeOf_snd ‹_›
    simp only [Value.map.sizeOf_spec]
    omega
  · have := sizeOf_snd ‹_›
    simp only [Value.object.sizeOf_spec]
    omega
  · simp only [Value.pointer.sizeOf_spec]
    omega

/-- Zero without its sign. -/
def unsignedZero (x : Float64) : Float64 := if x.isZero then .finite false 0 else x

/-- What is assumed of a number: its spelling is that of ECMAScript, is a JSON number, and is read
back. -/
structure NumberHost.Faithful (host : NumberHost) (numberText : Float64 → Text) (x : Float64) :
    Prop where
  finite : ∃ negative magnitude, x = .finite negative magnitude
  spelled : Go.numberString host x = encodeUtf8 (numberText x)
  grammar : IsNumber (Go.numberString host x)
  reads : host.parseFloat (Go.numberString host x) = unsignedZero x

/-- The trees that are written, with the containers around them and the depth that is left. A
container shares no memory with one around it. -/
inductive Portable (host : NumberHost) (numberText : Float64 → Text) :
    ℕ → List Visit → Value → Prop
  | nil {depth : ℕ} {seen : List Visit} : Portable host numberText depth seen .nil
  | bool {depth : ℕ} {seen : List Visit} (value : Bool) :
      Portable host numberText depth seen (.bool value)
  | number {depth : ℕ} {seen : List Visit} {x : Float64} (h : host.Faithful numberText x) :
      Portable host numberText depth seen (.number x)
  | string {depth : ℕ} {seen : List Visit} {value : GoString} (h : WellFormed value) :
      Portable host numberText depth seen (.string value)
  | slice {depth base : ℕ} {seen : List Visit} {items : List Value}
      (fresh : ⟨.slice, base⟩ ∉ seen)
      (h : ∀ item ∈ items, item ≠ .absent →
        Portable host numberText depth (⟨.slice, base⟩ :: seen) item) :
      Portable host numberText (depth + 1) seen (.slice false base items)
  | map {depth address : ℕ} {seen : List Visit} {members : List (GoString × Value)}
      (fresh : ⟨.map, address⟩ ∉ seen) (distinct : (members.map Prod.fst).Nodup)
      (names : ∀ member ∈ members, WellFormed member.1)
      (h : ∀ member ∈ members, member.2 ≠ .absent →
        Portable host numberText depth (⟨.map, address⟩ :: seen) member.2) :
      Portable host numberText (depth + 1) seen (.map address members)
  | object {depth base : ℕ} {seen : List Visit} {members : List (GoString × Value)}
      (fresh : ⟨.slice, base⟩ ∉ seen) (names : ∀ member ∈ members, WellFormed member.1)
      (h : ∀ member ∈ members, member.2 ≠ .absent →
        Portable host numberText depth (⟨.slice, base⟩ :: seen) member.2) :
      Portable host numberText (depth + 1) seen (.object base members)

/-- The members of a map or a member list. -/
def membersOf : Value → Option (List (GoString × Value))
  | .map _ members => some members
  | .object _ members => some members
  | _ => none

/-- The tree is the value, with absent items as null, zeros without their sign, and of the members
with one name the last one unless that is absent. -/
inductive Reads : Value → Json GoString Float64 → Prop
  | nil : Reads .nil .null
  | absent : Reads .absent .null
  | bool (value : Bool) : Reads (.bool value) (.bool value)
  | number (x : Float64) : Reads (.number x) (.number (unsignedZero x))
  | string (value : GoString) : Reads (.string value) (.string value)
  | slice {base : ℕ} {items : List Value} {trees : List (Json GoString Float64)}
      (length : items.length = trees.length) (h : ∀ pair ∈ items.zip trees, Reads pair.1 pair.2) :
      Reads (.slice false base items) (.array trees)
  | object {value : Value} {members : List (GoString × Value)}
      {trees : List (GoString × Json GoString Float64)} (hmembers : membersOf value = some members)
      (names : ∀ name, (lookup name trees).isSome = true ↔
        ∃ v, lookup name members.reverse = some v ∧ v ≠ .absent)
      (h : ∀ name v tree, lookup name members.reverse = some v → lookup name trees = some tree →
        Reads v tree) : Reads value (.object trees)

/-! ### Strings -/

theorem encodeUtf8_append (cs ds : Text) : encodeUtf8 (cs ++ ds) = encodeUtf8 cs ++ encodeUtf8 ds :=
  List.flatMap_append

theorem encodeUtf8_cons (c : Char) (cs : Text) :
    encodeUtf8 (c :: cs) = String.utf8EncodeChar c ++ encodeUtf8 cs := List.flatMap_cons

theorem inner_append (s t : Bytes) :
    (literal (s ++ t)).inner = (literal s).inner ++ (literal t).inner := by
  rw [literal, List.map_append, Literal.inner, List.flatMap_append]
  rfl

theorem escapes_ascii : ∀ n < 0x80,
    Go.escapeRune (Char.ofNat n) = encodeUtf8 (escapeChar (Char.ofNat n)) ∧
      Go.escapeRune (Char.ofNat n) = (literal (String.utf8EncodeChar (Char.ofNat n))).inner := by
  decide +kernel

theorem element_of_le {b : UInt8} (h : 0x80 ≤ b.toNat) : (element b).bytes = [b] := by
  have hne : ∀ {c : UInt8}, c.toNat < 0x80 → b ≠ c := by
    rintro c hc rfl
    omega
  have hnone : shortOf b = none := by
    rw [shortOf, if_neg (hne (by decide)), if_neg (hne (by decide)), if_neg (hne (by decide)),
      if_neg (hne (by decide)), if_neg (hne (by decide)), if_neg (hne (by decide)),
      if_neg (hne (by decide))]
  rw [element]
  split
  next e he =>
    rw [hnone] at he
    cases he
  · rw [dif_neg (by omega)]
    rfl

theorem le_of_mem_encodeChar {c : Char} (h : 0x80 ≤ c.toNat) {b : UInt8}
    (hb : b ∈ String.utf8EncodeChar c) : 0x80 ≤ b.toNat := by
  have hbyte : ∀ n, 0x80 ≤ n → n < 256 → 0x80 ≤ (UInt8.ofNat n).toNat := by
    intro n hn hlt
    rw [toNat_byte hlt]
    exact hn
  have hv : 0x80 ≤ c.val.toNat := h
  unfold String.utf8EncodeChar at hb
  generalize c.val.toNat = v at hv hb
  dsimp only at hb
  rw [if_neg (by omega)] at hb
  split at hb
  · simp only [List.mem_cons, List.not_mem_nil, or_false] at hb
    rcases hb with rfl | rfl <;> exact hbyte _ (by omega) (by omega)
  split at hb
  · simp only [List.mem_cons, List.not_mem_nil, or_false] at hb
    rcases hb with rfl | rfl | rfl <;> exact hbyte _ (by omega) (by omega)
  · simp only [List.mem_cons, List.not_mem_nil, or_false] at hb
    rcases hb with rfl | rfl | rfl | rfl <;> exact hbyte _ (by omega) (by omega)

/-- A rune is written as in ECMAScript, byte by byte. -/
theorem escapeRune_eq (c : Char) : Go.escapeRune c = encodeUtf8 (escapeChar c) ∧
    Go.escapeRune c = (literal (String.utf8EncodeChar c)).inner := by
  rcases Nat.lt_or_ge c.toNat 0x80 with hlt | hge
  · have h := escapes_ascii c.toNat hlt
    rw [Char.ofNat_toNat] at h
    exact h
  · have hne : ∀ {d : Char}, d.toNat < 0x80 → c ≠ d := by
      rintro d hd rfl
      omega
    have hrune : Go.escapeRune c = String.utf8EncodeChar c := by
      rw [Go.escapeRune, if_neg (not_or.mpr ⟨hne (by decide), hne (by decide)⟩),
        if_neg (hne (by decide)), if_neg (hne (by decide)), if_neg (hne (by decide)),
        if_neg (hne (by decide)), if_neg (hne (by decide)), if_neg (by omega)]
    have hchar : escapeChar c = [c] := by
      rw [escapeChar, if_neg (hne (by decide)), if_neg (hne (by decide)), if_neg (hne (by decide)),
        if_neg (hne (by decide)), if_neg (hne (by decide)), if_neg (hne (by decide)),
        if_neg (hne (by decide)), if_neg (by omega)]
    rw [hrune, hchar]
    refine ⟨(List.flatMap_singleton _ _).symm, ?_⟩
    have hall : ∀ b ∈ String.utf8EncodeChar c, 0x80 ≤ b.toNat := fun b => le_of_mem_encodeChar hge
    generalize String.utf8EncodeChar c = bytes at hall
    induction bytes with
    | nil => rfl
    | cons b bytes ih =>
      have hrest := ih fun b' hb' => hall b' (List.mem_cons_of_mem b hb')
      rw [literal, List.map_cons, Literal.inner, List.flatMap_cons,
        element_of_le (hall b List.mem_cons_self)]
      exact congrArg (List.cons b) hrest

theorem flatMap_escapeRune (cs : Text) : cs.flatMap Go.escapeRune = encodeUtf8 (cs.flatMap escapeChar) ∧
    cs.flatMap Go.escapeRune = (literal (encodeUtf8 cs)).inner := by
  induction cs with
  | nil => exact ⟨rfl, rfl⟩
  | cons c cs ih =>
    obtain ⟨hchar, hbytes⟩ := escapeRune_eq c
    constructor
    · rw [List.flatMap_cons, List.flatMap_cons, encodeUtf8_append, hchar, ih.1]
    · rw [List.flatMap_cons, encodeUtf8_cons, inner_append, hbytes, ih.2]

theorem quoteJson_encodeUtf8 (cs : Text) : Go.quoteJson (encodeUtf8 cs) = (literal (encodeUtf8 cs)).bytes := by
  rw [Go.quoteJson, replacementUtf8_of_wellFormed ⟨cs, rfl⟩, decodeUtf8_encodeUtf8,
    (flatMap_escapeRune cs).2]
  rfl

theorem quoteJson_eq {s : GoString} (h : WellFormed s) : Go.quoteJson s = (literal s).bytes := by
  obtain ⟨cs, rfl⟩ := h
  exact quoteJson_encodeUtf8 cs

theorem encodeUtf8_quoteJsonString (cs : Text) :
    encodeUtf8 (quoteJsonString cs) = (literal (encodeUtf8 cs)).bytes := by
  rw [quoteJsonString, encodeUtf8_cons, encodeUtf8_append, ← (flatMap_escapeRune cs).1,
    (flatMap_escapeRune cs).2]
  rfl

/-! ### Array indices -/

theorem arrayIndex_eq (name : GoString) : Go.arrayIndex name =
    if isDigits (codes name) ∧ decimal (value (codes name)) = codes name ∧
      value (codes name) < 4294967295 then some (value (codes name)) else none := by
  have hname : decimalBytes (value (codes name)) = name ↔
      decimal (value (codes name)) = codes name := by
    rw [← codes_decimalBytes]
    exact (List.map_injective_iff.mpr fun _ _ => UInt8.toNat_inj.mp).eq_iff.symm
  rw [Go.arrayIndex, Go.parseUint]
  by_cases h : isDigits (codes name) ∧ value (codes name) < 2 ^ 32
  · rw [if_pos h]
    dsimp only
    refine if_congr ?_ rfl rfl
    rw [hname]
    exact ⟨fun hand => ⟨h.1, hand.2, hand.1⟩, fun hand => ⟨hand.2.2, hand.2.1⟩⟩
  · rw [if_neg h, if_neg fun hand => h ⟨hand.1, by omega⟩]

theorem arrayIndex_injective {name name' : GoString} {n : ℕ} (h : Go.arrayIndex name = some n)
    (h' : Go.arrayIndex name' = some n) : name = name' := by
  have hall : ∀ {name : GoString}, Go.arrayIndex name = some n → decimal n = codes name := by
    intro name h
    rw [arrayIndex_eq] at h
    split at h
    next hand =>
      cases h
      exact hand.2.1
    · cases h
  exact List.map_injective_iff.mpr (fun _ _ => UInt8.toNat_inj.mp) ((hall h).symm.trans (hall h'))

theorem isDigits_eq_false {codes : List ℕ} {c : ℕ} (hmem : c ∈ codes) (h : 0x80 ≤ c) :
    isDigits codes = false := by
  rw [isDigits, Bool.and_eq_false_iff]
  right
  rw [List.all_eq_false]
  refine ⟨c, hmem, ?_⟩
  rw [DecimalText.isDigit, Bool.and_eq_true, decide_eq_true_eq, decide_eq_true_eq]
  omega

theorem encodeChar_of_lt {c : Char} (h : c.toNat < 0x80) :
    String.utf8EncodeChar c = [UInt8.ofNat c.toNat] := by
  have hv : c.val.toNat ≤ 0x7f := Nat.le_of_lt_succ h
  unfold String.utf8EncodeChar
  exact if_pos hv

theorem codes_encodeUtf8 {name : Text} (h : ∀ c ∈ name, c.toNat < 0x80) :
    codes (encodeUtf8 name) = name.map Char.toNat := by
  induction name with
  | nil => rfl
  | cons c name ih =>
    have hc := h c List.mem_cons_self
    have hrest := ih fun d hd => h d (List.mem_cons_of_mem c hd)
    rw [encodeUtf8_cons, encodeChar_of_lt hc, codes, List.singleton_append, List.map_cons,
      toNat_byte (by omega), List.map_cons]
    exact congrArg (List.cons c.toNat) hrest

/-- The names of array indices are ASCII, so the two notions agree. -/
theorem arrayIndex_encodeUtf8 (name : Text) : Go.arrayIndex (encodeUtf8 name) = arrayIndexOf name := by
  rw [arrayIndex_eq, arrayIndexOf]
  by_cases h : ∀ c ∈ name, c.toNat < 0x80
  · rw [codes_encodeUtf8 h]
  · push Not at h
    obtain ⟨c, hmem, hc⟩ := h
    have hname : isDigits (name.map Char.toNat) = false :=
      isDigits_eq_false (List.mem_map_of_mem hmem) hc
    have hbytes : isDigits (codes (encodeUtf8 name)) = false := by
      obtain ⟨b, rest, hb⟩ := List.exists_cons_of_ne_nil (@String.utf8EncodeChar_ne_nil c)
      have hmem' : b ∈ String.utf8EncodeChar c := hb ▸ List.mem_cons_self
      exact isDigits_eq_false (List.mem_map_of_mem (List.mem_flatMap.mpr ⟨c, hmem, hmem'⟩))
        (le_of_mem_encodeChar hc hmem')
    rw [if_neg fun hand => by rw [hbytes] at hand; exact absurd hand.1 (by decide),
      if_neg fun hand => by rw [hname] at hand; exact absurd hand.1 (by decide)]

/-! ### Member lists -/

section Unique

variable {α : Type}

/-- The loop has the members of the map, and the places of their names. -/
structure Collected (members : List (GoString × α))
    (state : List (GoString × α) × InsertionMap GoString ℕ) : Prop where
  entries : state.1 = (assign members).entries
  places : ∀ name i, state.2.get name = some i ↔ (state.1.map Prod.fst)[i]? = some name

theorem collected_step {members : List (GoString × α)}
    {state : List (GoString × α) × InsertionMap GoString ℕ} (h : Collected members state)
    (member : GoString × α) : Collected (members ++ [member]) (Go.collect state member) := by
  obtain ⟨unique, indices⟩ := state
  obtain ⟨name, v⟩ := member
  have hassign : assign (members ++ [(name, v)]) = (assign members).set name v := by
    rw [assign, List.foldl_append]
    rfl
  have hunique : unique = (assign members).entries := h.entries
  have hplaces : ∀ name i, indices.get name = some i ↔ (unique.map Prod.fst)[i]? = some name :=
    h.places
  rw [Go.collect]
  dsimp only
  cases hget : indices.get name with
  | some index =>
    have hat := (hplaces name index).mp hget
    have hmem : name ∈ (assign members).entries.map Prod.fst := hunique ▸ List.mem_of_getElem? hat
    have hset : (assign members).set name v = _ := dif_pos hmem
    have hreplace : unique.set index (name, v) = unique.map (InsertionMap.replaceEntry name v) := by
      refine List.ext_getElem? fun i => ?_
      rw [List.getElem?_map] at hat
      rw [List.getElem?_set, List.getElem?_map]
      by_cases hi : index = i
      · subst hi
        obtain ⟨e, he, hfst⟩ := Option.map_eq_some_iff.mp hat
        rw [if_pos rfl, he, if_pos (List.getElem?_eq_some_iff.mp he).1]
        exact congrArg some (if_pos hfst).symm
      · rw [if_neg hi]
        cases hother : unique[i]? with
        | none => rfl
        | some e =>
          have hne : e.1 ≠ name := by
            rintro rfl
            have hplace := (hplaces e.1 i).mpr (by rw [List.getElem?_map, hother]; rfl)
            exact hi (Option.some.inj (hget.symm.trans hplace))
          exact congrArg some (if_neg hne).symm
    constructor
    · rw [hassign, hset]
      dsimp only
      rw [hreplace, hunique]
    · have hfst : (Prod.fst ∘ InsertionMap.replaceEntry name v : GoString × α → GoString) = Prod.fst :=
        funext (InsertionMap.fst_replaceEntry name v)
      dsimp only
      rw [hreplace, List.map_map, hfst]
      exact hplaces
  | none =>
    have hnot : name ∉ unique.map Prod.fst := by
      intro hmem
      obtain ⟨i, hi⟩ := List.mem_iff_getElem?.mp hmem
      rw [(hplaces name i).mpr hi] at hget
      cases hget
    have hset : (assign members).set name v = _ := dif_neg (hunique ▸ hnot)
    constructor
    · rw [hassign, hset]
      dsimp only
      rw [hunique]
    · intro name' i
      dsimp only
      rw [List.map_append, List.getElem?_append, List.length_map]
      have hlt : i < unique.length ∨ (unique.map Prod.fst)[i]? = none := by
        rw [List.getElem?_eq_none_iff, List.length_map]
        exact Nat.lt_or_ge _ _
      by_cases hname : name' = name
      · rw [hname, InsertionMap.get_set_self, Option.some.injEq]
        split
        next hi =>
          refine ⟨fun hlen => absurd hi (by omega), fun hat => absurd (List.mem_of_getElem? hat) hnot⟩
        next hi =>
          rw [List.map_singleton, List.getElem?_singleton]
          split
          · exact ⟨fun _ => rfl, fun _ => by omega⟩
          · exact ⟨fun hlen => (by omega), fun h => (by cases h)⟩
      · rw [InsertionMap.get_set_of_ne _ hname, hplaces]
        split
        · exact Iff.rfl
        next hi =>
          rw [hlt.resolve_left hi, List.map_singleton, List.getElem?_singleton]
          split
          · exact ⟨fun h => (by cases h), fun h => absurd (Option.some.inj h).symm hname⟩
          · exact ⟨fun h => (by cases h), fun h => (by cases h)⟩

theorem uniqueMembers_eq (members : List (GoString × α)) :
    Go.uniqueMembers members = (assign members).entries := by
  suffices hall : Collected members (members.foldl Go.collect ([], .empty)) from hall.entries
  induction members using List.reverseRecOn with
  | nil => exact ⟨rfl, fun name i => ⟨fun h => (by cases h), fun h => (by cases h)⟩⟩
  | append_singleton members member ih =>
    rw [List.foldl_append]
    exact collected_step ih member

end Unique

end DialCache.PortableJson
