import Mathlib.Data.List.Lex
import DialCache.KeyPorts

/-!
# One keyspace for four ports

Secondary key dimensions reach a port as a record of named values in some enumeration order.
Each port spells the values, drops the omitted ones and orders the rest by name. The
order is that of UTF-16 code units in every port, although only one of them has UTF-16
strings: TypeScript compares its strings, Go and Rust re-encode theirs, and Python
compares big-endian bytes.
-/

namespace DialCache.KeyAgreement

open UnicodeText JsValues CacheKeys PortableKeys HostKeys KeyPorts

/-- A secondary dimension of a key. -/
inductive ArgValue (σ : Type) where
  | text (value : σ)
  | null
  | boolean (value : Bool)
  | omitted

def ArgValue.map {σ τ : Type} (f : σ → τ) : ArgValue σ → ArgValue τ
  | .text value => .text (f value)
  | .null => .null
  | .boolean value => .boolean value
  | .omitted => .omitted

/-- What a caller identifies a value by. -/
structure KeyRequest (σ : Type) where
  cacheNamespace : σ
  keyType : σ
  id : σ
  args : List (σ × ArgValue σ)
  useCase : σ
  tracked : Bool

/-- The identity of a request with normalized arguments. -/
def KeyRequest.identity {σ : Type} (request : KeyRequest σ) (args : List (σ × σ)) : Identity σ where
  cacheNamespace := request.cacheNamespace
  keyType := request.keyType
  id := request.id
  args := args
  useCase := request.useCase
  tracked := request.tracked

/-! ### The portable order -/

/-- The spelling of a value, unless it is omitted. -/
def ArgValue.spelling {σ : Type} (literal : String → σ) : ArgValue σ → Option σ
  | .text value => some value
  | .null => some (literal "null")
  | .boolean value => some (literal (if value then "true" else "false"))
  | .omitted => none

def spelled {σ : Type} (literal : String → σ) (record : List (σ × ArgValue σ)) : List (σ × σ) :=
  record.filterMap fun arg => (arg.2.spelling literal).map (arg.1, ·)

def unitKey (name : Text) : List ℕ := (units name).map UInt16.toNat

theorem nil_le (as : List ℕ) : [] ≤ as := not_lt.mp (List.not_lt_nil as)

theorem not_cons_le_nil (a : ℕ) (as : List ℕ) : ¬ a :: as ≤ [] := not_le.mpr (List.nil_lt_cons a as)

theorem cons_le_cons_iff {a b : ℕ} {as bs : List ℕ} :
    a :: as ≤ b :: bs ↔ a < b ∨ a = b ∧ as ≤ bs := by
  rw [← not_lt, ← not_lt, List.cons_lt_cons_iff]
  constructor
  · intro h
    rcases Nat.lt_trichotomy a b with hlt | heq | hgt
    · exact Or.inl hlt
    · exact Or.inr ⟨heq, fun hbs => h (Or.inr ⟨heq.symm, hbs⟩)⟩
    · exact absurd (Or.inl hgt) h
  · intro h hlt
    rcases h with h | ⟨heq, hbs⟩ <;> rcases hlt with hlt | ⟨heq', hlt⟩
    · omega
    · omega
    · omega
    · exact hbs hlt

/-- The arguments of a record, ordered by the UTF-16 code units of their names. -/
def normalize (record : List (Text × ArgValue Text)) : List (Text × Text) :=
  (spelled String.toList record).mergeSort fun a b => decide (unitKey a.1 ≤ unitKey b.1)

theorem unitKey_inj {n n' : Text} (h : unitKey n = unitKey n') : n = n' := by
  have hunits : units n = units n' := by
    apply List.map_injective_iff.mpr _ h
    intro a b hab
    exact UInt16.toNat_inj.mp hab
  rw [← scalars_units n, hunits, scalars_units]

variable {record order : List (Text × ArgValue Text)}

theorem perm_spelled (h : order.Perm record) :
    (spelled String.toList order).Perm (spelled String.toList record) :=
  h.filterMap _

theorem eq_of_mem_spelled (hnames : (record.map Prod.fst).Nodup) {a b : Text × Text}
    (ha : a ∈ spelled String.toList record) (hb : b ∈ spelled String.toList record) (h : a.1 =
      b.1) :
    a = b := by
  obtain ⟨x, hx, hax⟩ := List.mem_filterMap.mp ha
  obtain ⟨y, hy, hby⟩ := List.mem_filterMap.mp hb
  obtain ⟨s, hs, rfl⟩ := Option.map_eq_some_iff.mp hax
  obtain ⟨t, ht, rfl⟩ := Option.map_eq_some_iff.mp hby
  obtain rfl : x = y := List.inj_on_of_nodup_map hnames hx hy h
  rw [hs] at ht
  obtain rfl := Option.some.inj ht
  rfl

theorem pairwise_normalize (record : List (Text × ArgValue Text)) :
    (normalize record).Pairwise fun a b => unitKey a.1 ≤ unitKey b.1 := by
  have hsorted : (normalize record).Pairwise
      fun a b => decide (unitKey a.1 ≤ unitKey b.1) = true := by
    apply List.pairwise_mergeSort
    · intro a b c hab hbc
      simp only [decide_eq_true_eq] at hab hbc ⊢
      exact le_trans hab hbc
    · intro a b
      simp only [Bool.or_eq_true, decide_eq_true_eq]
      exact le_total _ _
  simpa using hsorted

/-- Distinct names have one order, however the record was enumerated and sorted. -/
theorem eq_normalize (hnames : (record.map Prod.fst).Nodup) {pairs : List (Text × Text)}
    (hperm : pairs.Perm (spelled String.toList record))
    (hsorted : pairs.Pairwise fun a b => unitKey a.1 ≤ unitKey b.1) : pairs = normalize record := by
  have hnormal : (normalize record).Perm (spelled String.toList record) := List.mergeSort_perm _ _
  apply List.Perm.eq_of_pairwise _ hsorted (pairwise_normalize record) (hperm.trans hnormal.symm)
  intro a b ha hb hab hba
  have hname := unitKey_inj (le_antisymm hab hba)
  exact eq_of_mem_spelled hnames (hperm.mem_iff.mp ha) (hnormal.mem_iff.mp hb) hname

theorem strictly_normalize (hnames : (record.map Prod.fst).Nodup) :
    (normalize record).Pairwise fun a b => unitKey a.1 < unitKey b.1 := by
  have hsublist : ∀ record : List (Text × ArgValue Text),
      ((spelled String.toList record).map Prod.fst).Sublist (record.map Prod.fst) := by
    intro record
    induction record with
    | nil => exact List.Sublist.slnil
    | cons arg record ih =>
      simp only [spelled, List.filterMap_cons, List.map_cons] at ih ⊢
      cases arg.2.spelling String.toList with
      | none => exact ih.cons _
      | some value => exact ih.cons_cons _
  have hperm : (normalize record).Perm (spelled String.toList record) := List.mergeSort_perm _ _
  have hdistinct : ((normalize record).map Prod.fst).Nodup :=
    (hperm.map Prod.fst).nodup_iff.mpr (hnames.sublist (hsublist record))
  apply ((pairwise_normalize record).and (List.pairwise_map.mp hdistinct)).imp
  intro a b hab
  rcases hab.1.lt_or_eq with hlt | heq
  · exact hlt
  · exact absurd (unitKey_inj heq) hab.2

/-- A host's spelling of a record is the host's form of the portable spelling. -/
theorem spelled_map {σ : Type} {literal : String → σ} {write : Text → σ}
    (hliteral : ∀ name ∈ ["null", "true", "false"], literal name = write name.toList)
    (record : List (Text × ArgValue Text)) :
    spelled literal (record.map fun arg => (write arg.1, arg.2.map write)) =
      (spelled String.toList record).map fun pair => (write pair.1, write pair.2) := by
  have hnull := hliteral "null" (by simp)
  have htrue := hliteral "true" (by simp)
  have hfalse := hliteral "false" (by simp)
  have hspelling : ∀ value : ArgValue Text, (value.map write).spelling literal =
      (value.spelling String.toList).map write := by
    intro value
    cases value with
    | text value => rfl
    | null => simp [ArgValue.map, ArgValue.spelling, hnull]
    | boolean value => cases value <;> simp [ArgValue.map, ArgValue.spelling, htrue, hfalse]
    | omitted => rfl
  induction record with
  | nil => rfl
  | cons arg record ih =>
    simp only [spelled, List.map_cons, List.filterMap_cons, hspelling] at ih ⊢
    cases arg.2.spelling String.toList with
    | none => exact ih
    | some value => simp only [Option.map_some, List.map_cons, ih]

/-- Sorting a host's pairs by any comparison that agrees with the portable order. -/
theorem mergeSort_map {σ : Type} (write : Text → σ) (le : σ × σ → σ × σ → Bool)
    (hnames : (record.map Prod.fst).Nodup) (horder : order.Perm record)
    (hle : ∀ a b : Text × Text, le (write a.1, write a.2) (write b.1, write b.2) =
      decide (unitKey a.1 ≤ unitKey b.1)) :
    ((spelled String.toList order).map fun pair => (write pair.1, write pair.2)).mergeSort le =
      (normalize record).map fun pair => (write pair.1, write pair.2) := by
  have hsort : normalize order = normalize record := by
    apply eq_normalize hnames _ (pairwise_normalize order)
    exact (List.mergeSort_perm _ _).trans (perm_spelled horder)
  rw [← hsort, normalize]
  symm
  apply List.map_mergeSort
  intro a _ b _
  exact (hle a b).symm

theorem ok_bind {ε α γ : Type} (a : α) (f : α → Except ε γ) : (Except.ok a >>= f) = f a := rfl

/-! ### Normalization in the ports -/

namespace TypeScript

/-- `normalizeArgs` on a record whose values are still to be spelled. -/
def normalizeArgs (args : List (JsString × ArgValue JsString)) : List (JsString × JsString) :=
  CacheKeys.normalizeArgs (args.map fun arg => (arg.1, arg.2.spelling text))

theorem normalizeArgs_eq (args : List (JsString × ArgValue JsString)) :
    normalizeArgs args = (spelled text args).insertionSort nameLe := by
  simp only [normalizeArgs, CacheKeys.normalizeArgs, spelled, List.filterMap_map]
  rfl

theorem normalizeArgs_write (hnames : (record.map Prod.fst).Nodup) (horder : order.Perm record) :
    normalizeArgs (order.map fun arg => (units arg.1, arg.2.map units)) =
      (normalize record).map fun pair => (units pair.1, units pair.2) := by
  have hliteral : ∀ name ∈ ["null", "true", "false"], text name = units name.toList := by
    decide +kernel
  let portableLe : Text × Text → Text × Text → Prop := fun a b => unitKey a.1 ≤ unitKey b.1
  have hmap := List.map_insertionSort portableLe nameLe
    (fun pair : Text × Text => (units pair.1, units pair.2)) (spelled String.toList order)
    (by
      intro a _ b _
      exact not_lt.symm)
  rw [normalizeArgs_eq, spelled_map hliteral, ← hmap]
  congr 1
  have htrans : IsTrans (Text × Text) portableLe := ⟨fun a b c hab hbc => le_trans hab hbc⟩
  have htotal : Std.Total portableLe := ⟨fun a b => le_total _ _⟩
  apply eq_normalize hnames
  · exact (List.perm_insertionSort portableLe _).trans (perm_spelled horder)
  · exact List.pairwise_insertionSort portableLe _

end TypeScript

namespace Go

open KeyPorts.Go

/-- The comparison loop of `utf16Less`. -/
def unitsLess : List UInt16 → List UInt16 → Bool
  | a :: as, b :: bs => if a ≠ b then a < b else unitsLess as bs
  | as, bs => as.length < bs.length

def utf16Less (left right : GoString) : Bool :=
  unitsLess (units (decodeUtf8 left)) (units (decodeUtf8 right))

def normalizeArg (result : List (GoString × GoString)) (arg : GoString × ArgValue GoString) :
    Except String (List (GoString × GoString)) :=
  match arg.2.spelling literal with
  | none => .ok result
  | some text =>
    if !validString arg.1 then .error "argument name must contain Unicode scalars"
    else if !validString text then .error "argument value must contain Unicode scalars"
    else .ok (result ++ [(arg.1, text)])

/-- `NormalizeArgs` on a map in the order of one iteration over it. -/
def normalizeArgs (args : List (GoString × ArgValue GoString)) :
    Except String (List (GoString × GoString)) := do
  let result ← args.foldlM normalizeArg []
  return result.mergeSort fun a b => !utf16Less b.1 a.1

theorem unitsLess_iff (as bs : List UInt16) :
    unitsLess as bs = true ↔ as.map UInt16.toNat < bs.map UInt16.toNat := by
  induction as generalizing bs with
  | nil =>
    cases bs with
    | nil => simp [unitsLess]
    | cons b bs => simp [unitsLess]
  | cons a as ih =>
    cases bs with
    | nil => simp [unitsLess]
    | cons b bs =>
      rw [List.map_cons, List.map_cons, List.cons_lt_cons_iff, unitsLess]
      by_cases hab : a = b
      · subst hab
        simp [ih]
      · have hne : a.toNat ≠ b.toNat := fun h => hab (UInt16.toNat_inj.mp h)
        simp [hab, hne, UInt16.lt_iff_toNat_lt]

theorem foldlM_normalizeArg (record : List (Text × ArgValue Text))
    (result : List (GoString × GoString)) :
    (record.map fun arg => (encodeUtf8 arg.1, arg.2.map encodeUtf8)).foldlM normalizeArg result =
      .ok (result ++ spelled literal
        (record.map fun arg => (encodeUtf8 arg.1, arg.2.map encodeUtf8))) := by
  have hvalid : ∀ t : Text, validString (encodeUtf8 t) = true := KeyPorts.Go.validString_write
  have hnull : validString (literal "null") = true := by decide +kernel
  have htrue : validString (literal "true") = true := by decide +kernel
  have hfalse : validString (literal "false") = true := by decide +kernel
  have hspelling : ∀ (value : ArgValue Text) (text : GoString),
      (value.map encodeUtf8).spelling literal = some text → validString text = true := by
    intro value text h
    cases value with
    | text value =>
      obtain rfl := Option.some.inj h
      exact hvalid value
    | null =>
      obtain rfl := Option.some.inj h
      exact hnull
    | boolean value =>
      obtain rfl := Option.some.inj h
      cases value
      · exact hfalse
      · exact htrue
    | omitted => cases h
  induction record generalizing result with
  | nil => simp [spelled, pure, Except.pure]
  | cons arg record ih =>
    simp only [List.map_cons, List.foldlM_cons, normalizeArg]
    cases htext : (arg.2.map encodeUtf8).spelling literal with
    | none =>
      have hrest := ih result
      rw [ok_bind, hrest]
      simp [spelled, htext]
    | some text =>
      have hrest := ih (result ++ [(encodeUtf8 arg.1, text)])
      simp only [hvalid, hspelling _ _ htext, Bool.not_true, Bool.false_eq_true, if_false]
      rw [ok_bind, hrest]
      simp [spelled, htext]

theorem normalizeArgs_write (hnames : (record.map Prod.fst).Nodup) (horder : order.Perm record) :
    normalizeArgs (order.map fun arg => (encodeUtf8 arg.1, arg.2.map encodeUtf8)) =
      .ok ((normalize record).map fun pair => (encodeUtf8 pair.1, encodeUtf8 pair.2)) := by
  have hliteral : ∀ name ∈ ["null", "true", "false"], literal name = encodeUtf8 name.toList := by
    decide +kernel
  have hsorted := mergeSort_map encodeUtf8 (fun a b => !utf16Less b.1 a.1) hnames horder (by
    intro a b
    rw [Bool.eq_iff_iff]
    simp only [utf16Less, decodeUtf8_encodeUtf8, Bool.not_eq_true', decide_eq_true_eq]
    rw [← Bool.not_eq_true, unitsLess_iff]
    exact not_lt)
  rw [normalizeArgs, foldlM_normalizeArg, List.nil_append, spelled_map hliteral, ← hsorted]
  rfl

end Go

namespace Rust

def compareUnits : List UInt16 → List UInt16 → Ordering
  | [], [] => .eq
  | [], _ :: _ => .lt
  | _ :: _, [] => .gt
  | a :: as, b :: bs => (compare a.toNat b.toNat).then (compareUnits as bs)

def compareUtf16 (left right : Text) : Ordering := compareUnits (units left) (units right)

def normalizeArgs (args : List (Text × ArgValue Text)) : List (Text × Text) :=
  (spelled String.toList args).mergeSort fun a b => (compareUtf16 a.1 b.1).isLE

theorem compareUnits_isLE (as bs : List UInt16) :
    (compareUnits as bs).isLE = true ↔ as.map UInt16.toNat ≤ bs.map UInt16.toNat := by
  induction as generalizing bs with
  | nil =>
    cases bs with
    | nil => simp [compareUnits]
    | cons b bs => exact iff_of_true rfl (nil_le _)
  | cons a as ih =>
    cases bs with
    | nil => exact iff_of_false (by simp [compareUnits]) (not_cons_le_nil _ _)
    | cons b bs =>
      rw [List.map_cons, List.map_cons, cons_le_cons_iff, ← ih, compareUnits]
      rcases Nat.lt_trichotomy a.toNat b.toNat with h | h | h
      · simp [Nat.compare_eq_lt.mpr h, h]
      · simp [h]
      · simp [Nat.compare_eq_gt.mpr h, Nat.lt_asymm h, Nat.ne_of_gt h]

theorem normalizeArgs_eq (hnames : (record.map Prod.fst).Nodup) (horder : order.Perm record) :
    normalizeArgs order = normalize record := by
  have hsorted := mergeSort_map (fun t => t) (fun a b => (compareUtf16 a.1 b.1).isLE) hnames horder
    (by
      intro a b
      rw [Bool.eq_iff_iff, compareUtf16, compareUnits_isLE, decide_eq_true_eq]
      exact Iff.rfl)
  simpa [normalizeArgs] using hsorted

end Rust

/-! ### Python -/

namespace Python

/-- A `str`: code points, surrogates included. -/
abbrev PyString := List ℕ

inductive KeyError where
  | unicodeDecodeError
  | valueError (message : String)
deriving DecidableEq

def literal (text : String) : PyString := text.toList.map Char.toNat

/-- `value.encode("utf-16", "surrogatepass")`, as code units. -/
def utf16Units (value : PyString) : List UInt16 :=
  value.flatMap fun c =>
    if c < 0x10000 then [UInt16.ofNat c]
    else [UInt16.ofNat (0xD800 + (c - 0x10000) / 0x400),
      UInt16.ofNat (0xDC00 + (c - 0x10000) % 0x400)]

/-- `_scalar_text`: explicit surrogate pairs are combined and lone surrogates are refused. -/
def scalarText (value : PyString) : Except KeyError Text :=
  if isWellFormed (utf16Units value) then .ok (scalars (utf16Units value))
  else .error .unicodeDecodeError

def quoteByte (byte : UInt8) : PyString :=
  let n := byte.toNat
  if (65 ≤ n && n ≤ 90) || (97 ≤ n && n ≤ 122) || (48 ≤ n && n ≤ 57) ||
      (literal "_.-~").contains n || (literal "~!*'()-._").contains n then [n]
  else 37 :: [n / 16, n % 16].map fun digit => if digit < 10 then 48 + digit else 65 + (digit - 10)

def encodeComponent (value : PyString) : Except KeyError PyString := do
  return (encodeUtf8 (← scalarText value)).flatMap quoteByte

def hasBrace (value : PyString) : Bool := value.contains 123 || value.contains 125

def joinComponents (components : List PyString) : Except KeyError PyString := do
  return List.intercalate (literal ":") (← components.mapM encodeComponent)

def refuseBrace (name : String) (value : PyString) : Except KeyError Unit :=
  if hasBrace value then .error (.valueError ("Tracked " ++ name ++ " must not contain braces"))
  else .ok ()

def invalidationPrefix (cacheNamespace keyType id : PyString) : Except KeyError PyString := do
  refuseBrace "namespace" cacheNamespace
  refuseBrace "key_type" keyType
  refuseBrace "id" id
  joinComponents [cacheNamespace, keyType, id]

def encodeArg (arg : PyString × PyString) : Except KeyError PyString := do
  return (← encodeComponent arg.1) ++ literal "=" ++ (← encodeComponent arg.2)

def encodeArgs (args : List (PyString × PyString)) : Except KeyError PyString :=
  if args.isEmpty then .ok []
  else do return literal "?" ++ List.intercalate (literal "&") (← args.mapM encodeArg)

def taggedPrefix (cacheNamespace keyType id : PyString) : Except KeyError PyString := do
  return literal "\x7b" ++ (← invalidationPrefix cacheNamespace keyType id) ++ literal "\x7d"

/-- The names that constructing a `Key` derives. -/
def keys (identity : Identity PyString) : Except KeyError (KeyNames PyString) :=
  if hasBrace identity.cacheNamespace then
    .error (.valueError "DialCache namespace must not contain braces")
  else do
    let keyPrefix ← if identity.tracked then
        taggedPrefix identity.cacheNamespace identity.keyType identity.id
      else joinComponents [identity.cacheNamespace, identity.keyType, identity.id]
    let query ← encodeArgs identity.args
    let useCase ← encodeComponent identity.useCase
    let logical := keyPrefix ++ query ++ literal "#" ++ useCase
    return {
      logical
      value := logical ++ literal ":dialcache-frame-v1"
      watermark := if identity.tracked then some (keyPrefix ++ literal "#watermark") else none }

/-- The UTF-16 code units of a name as big-endian bytes. -/
def sortKey (name : PyString) : List ℕ :=
  (utf16Units name).flatMap fun u => [u.toNat / 256, u.toNat % 256]

def normalizeArgs (args : List (PyString × ArgValue PyString)) : List (PyString × PyString) :=
  (spelled literal args).mergeSort fun a b => decide (sortKey a.1 ≤ sortKey b.1)

/-- The code points of text. -/
def codePoints (t : Text) : PyString := t.map Char.toNat

theorem utf16Units_codePoints (t : Text) : utf16Units (codePoints t) = units t := by
  simp only [utf16Units, codePoints, units, List.flatMap_map]
  rfl

/-- Big-endian bytes keep the order of code units. -/
theorem bytes_le_iff (as bs : List UInt16) :
    as.flatMap (fun u => [u.toNat / 256, u.toNat % 256]) ≤
      bs.flatMap (fun u => [u.toNat / 256, u.toNat % 256]) ↔
    as.map UInt16.toNat ≤ bs.map UInt16.toNat := by
  induction as generalizing bs with
  | nil => exact iff_of_true (nil_le _) (nil_le _)
  | cons a as ih =>
    cases bs with
    | nil => exact iff_of_false (not_cons_le_nil _ _) (not_cons_le_nil _ _)
    | cons b bs =>
      simp only [List.flatMap_cons, List.cons_append, List.nil_append, List.map_cons,
        cons_le_cons_iff, ih]
      constructor
      · intro h
        rcases h with h | ⟨hhigh, h | ⟨hlow, h⟩⟩
        · left
          omega
        · left
          omega
        · right
          exact ⟨by omega, h⟩
      · intro h
        rcases h with h | ⟨heq, h⟩
        · by_cases hhigh : a.toNat / 256 < b.toNat / 256
          · exact Or.inl hhigh
          · right
            constructor
            · omega
            · left
              omega
        · right
          rw [heq]
          exact ⟨rfl, Or.inr ⟨rfl, h⟩⟩

theorem quoteByte_eq (byte : UInt8) : quoteByte byte = codePoints (escapeByte byte) := by
  have hall : ∀ n < 256, quoteByte (UInt8.ofNat n) = codePoints (escapeByte (UInt8.ofNat n)) := by
    decide +kernel
  exact forall_byte (P := fun byte => quoteByte byte = codePoints (escapeByte byte)) hall byte

theorem encodeComponent_write (t : Text) :
    encodeComponent (codePoints t) = .ok (codePoints (escape t)) := by
  have hbytes : ∀ bs : Bytes, bs.flatMap quoteByte = codePoints (bs.flatMap escapeByte) := by
    intro bs
    induction bs with
    | nil => rfl
    | cons b bs ih => simp only [List.flatMap_cons, ih, quoteByte_eq, codePoints, List.map_append]
  have hscalar : scalarText (codePoints t) = .ok t := by
    simp [scalarText, utf16Units_codePoints, isWellFormed]
  rw [encodeComponent, hscalar, ok_bind, hbytes]
  rfl

theorem hasBrace_write (t : Text) : hasBrace (codePoints t) = isBraced t := by
  have hmem : ∀ c : Char, c.toNat ∈ codePoints t ↔ c ∈ t := by
    intro c
    simp only [codePoints, List.mem_map, Char.toNat_inj]
    constructor
    · intro h
      obtain ⟨d, hd, heq⟩ := h
      rwa [← heq]
    · intro h
      exact ⟨c, h, rfl⟩
  have hopening := hmem '{'
  have hclosing := hmem '}'
  have hcodes : '{'.toNat = 123 ∧ '}'.toNat = 125 := by decide
  rw [hcodes.1] at hopening
  rw [hcodes.2] at hclosing
  simp only [hasBrace, isBraced, List.contains_eq_mem, hopening, hclosing]

theorem joinComponents_write (n k i : Text) :
    joinComponents [codePoints n, codePoints k, codePoints i] = .ok (codePoints (entity n k i)) := by
  have hcolon : literal ":" = codePoints [':'] := by decide +kernel
  simp only [joinComponents, List.mapM_cons, List.mapM_nil, encodeComponent_write, ok_bind]
  simp [ok_bind, pure, Except.pure, hcolon, codePoints, entity, List.intercalate]

theorem encodeArgs_write (ts : List (Text × Text)) :
    encodeArgs (ts.map fun t => (codePoints t.1, codePoints t.2)) = .ok (codePoints (query ts)) := by
  have hquestion : literal "?" = [Char.toNat '?'] := by decide +kernel
  have hampersand : literal "&" = [Char.toNat '&'] := by decide +kernel
  have hequals : literal "=" = [Char.toNat '='] := by decide +kernel
  have harg : ∀ t : Text × Text, encodeArg (codePoints t.1, codePoints t.2) =
      .ok (codePoints (escapedArg t)) := by
    intro t
    simp only [encodeArg, encodeComponent_write, ok_bind]
    simp [pure, Except.pure, hequals, codePoints, escapedArg]
  have hargs : ∀ ts : List (Text × Text),
      (ts.map fun t => (codePoints t.1, codePoints t.2)).mapM encodeArg =
        .ok (ts.map fun t => codePoints (escapedArg t)) := by
    intro ts
    induction ts with
    | nil => rfl
    | cons t ts ih =>
      rw [List.map_cons, List.mapM_cons, harg, ok_bind, ih, ok_bind]
      rfl
  cases ts with
  | nil => rfl
  | cons t ts =>
    have hjoin := intercalate_ampersand Char.toNat (escapedArg t) (ts.map escapedArg)
    simp only [List.map_cons, List.map_map, Function.comp_def] at hjoin
    rw [show ['&'.toNat] = [38] from rfl] at hjoin
    rw [encodeArgs, hargs, ok_bind]
    simp [pure, Except.pure, hquestion, hampersand, query, hjoin, List.flatMap_map, codePoints]

/-- The Python builder follows the portable scheme on scalar text. -/
theorem toOption_keys (identity : Identity Text) : (keys (identity.map codePoints)).toOption =
    (PortableKeys.keys identity).map (KeyNames.map codePoints) := by
  have hhash : literal "#" = codePoints ['#'] := by decide +kernel
  have hopening : literal "\x7b" = codePoints ['{'] := by decide +kernel
  have hclosing : literal "\x7d" = codePoints ['}'] := by decide +kernel
  have hframe : literal ":dialcache-frame-v1" = codePoints frameSuffix := by decide +kernel
  have hwatermark : literal "#watermark" = codePoints watermarkSuffix := by decide +kernel
  have htagged : ∀ n k i : Text, taggedPrefix (codePoints n) (codePoints k) (codePoints i) =
      if isBraced n then .error (.valueError "Tracked namespace must not contain braces")
      else if isBraced k then .error (.valueError "Tracked key_type must not contain braces")
      else if isBraced i then .error (.valueError "Tracked id must not contain braces")
      else .ok (codePoints (hashTagged (entity n k i))) := by
    intro n k i
    simp only [taggedPrefix, invalidationPrefix, refuseBrace, hasBrace_write, joinComponents_write]
    cases isBraced n <;> cases isBraced k <;> cases isBraced i <;>
      simp [bind, Except.bind, pure, Except.pure, hopening, hclosing, codePoints, hashTagged]
  cases identity with
  | mk n k i args useCase tracked =>
    simp only [keys, Identity.map, hasBrace_write, joinComponents_write, htagged, encodeArgs_write,
      encodeComponent_write, hhash, hframe, hwatermark, PortableKeys.keys, accepts]
    cases tracked <;> by_cases hbn : isBraced n = true <;> by_cases hbk : isBraced k = true <;>
      by_cases hbi : isBraced i = true <;>
      simp [bind, Except.bind, pure, Except.pure, Except.toOption, KeyNames.map, logicalName,
        namePrefix, watermarkName, codePoints, hbn, hbk, hbi]

theorem normalizeArgs_write (hnames : (record.map Prod.fst).Nodup) (horder : order.Perm record) :
    normalizeArgs (order.map fun arg => (codePoints arg.1, arg.2.map codePoints)) =
      (normalize record).map fun pair => (codePoints pair.1, codePoints pair.2) := by
  have hliteral : ∀ name ∈ ["null", "true", "false"], literal name = codePoints name.toList := by
    intro name _
    rfl
  have hsorted := mergeSort_map codePoints (fun a b => decide (sortKey a.1 ≤ sortKey b.1)) hnames
    horder (by
      intro a b
      rw [decide_eq_decide, sortKey, sortKey, utf16Units_codePoints, utf16Units_codePoints,
        bytes_le_iff]
      exact Iff.rfl)
  rw [normalizeArgs, spelled_map hliteral, hsorted]

end Python

end DialCache.KeyAgreement
