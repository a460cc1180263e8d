import DialCache.LoggedPrograms
import DialCache.JsonPointers
import DialCache.DifferenceWalks
import DialCache.CacheOperations

/-!
# The content of a mismatch warning

A confirmed mismatch is logged with the fields that the policy asks for: the paths that differ,
their count, the differing sides and the two values. Rendering may fail, a use case may bring a
hook in place of the built-in difference walk, and the hook may return anything. Each call of
`JSON.stringify` is written to a log here, with its answer, so that a value whose `toJSON` keeps a
state can answer differently each time.
-/

namespace DialCache.MismatchLogs

open LoggedPrograms UnicodeText CacheKeys Utf8Prefixes LogClamps JsonTrees JsonDifferences
open RuntimeConfig (ShadowMismatchDiffLevel)
open CacheOperations (ShadowMismatchLogPlan)
open DifferenceWalks (Enumeration maxEntries)
open JsonPointers (pathMaxBytes)
open PortableKeys (Text)

def shadowLogValueMaxBytes : ℕ := 8192

def shadowLogDiffMaxBytes : ℕ := 8192

def shadowMismatchSideMaxBytes : ℕ := 1024

/-! ### Values and hooks -/

inductive SideName where
  | cached
  | source
deriving DecidableEq

/-- What is rendered: a whole value or a side of an entry. -/
inductive Target where
  | root (side : SideName)
  | entry (index : ℕ) (side : SideName)
deriving DecidableEq

/-- A side of an entry: a value of the application, or a part of a parsed rendering. -/
inductive Side (V ν : Type) where
  | value (v : V)
  | json (value : Json JsString ν)

/-- What a call of `JSON.stringify` does. -/
inductive Rendering where
  | text (json : JsString)
  | undefined
  | throws

/-- A property that is read: its value, where `none` is `undefined`, or a getter that throws. -/
inductive Property (V : Type) where
  | throws
  | value (v : Option V)

/-- What destructuring reads from a member of a hook's array. -/
structure Member (V : Type) where
  path : Property V
  cached : Property V
  source : Property V

/-- What a hook does. A member of its array that is `null` or `undefined` is `none`. Reading the
members may run code of the hook, which leaves the array with some other `length`. -/
inductive HookResult (V : Type) where
  | throws
  | promiseLike
  | other
  | array (members : List (Option (Member V))) (length : ℕ)

/-- An entry after its clamps. -/
structure BoundedEntry (ν : Type) where
  path : JsString
  cached : Option (Json JsString ν)
  source : Option (Json JsString ν)

structure RawMismatchEntry (V ν : Type) where
  path : JsString
  cached : Option (Side V ν)
  source : Option (Side V ν)

structure RawMismatchDiff (V ν : Type) where
  entries : List (RawMismatchEntry V ν)
  count : ℕ

/-- The host: `JSON.stringify` by the number of calls before, `String`, `JSON.parse` on rendered
text, `JSON.stringify` on clamped entries, and the order of `Object.keys`. -/
structure Host (V ν : Type) where
  stringify : ℕ → Side V ν → Rendering
  string : Option V → Option JsString
  parse : JsString → Json JsString ν
  stringifyEntries : List (BoundedEntry ν) → JsString
  keys : Enumeration JsString

/-- A rendering and its answer. -/
abbrev Rendered := Target × Option JsString

abbrev Render := Logged Rendered String

section Rendering

variable {V ν : Type} (host : Host V ν)

/-- `JSON.stringify(undefined)` is `undefined`. -/
def stringify (calls : ℕ) : Option (Side V ν) → Rendering
  | none => .undefined
  | some side => host.stringify calls side

def renderJson (target : Target) (value : Option (Side V ν)) : Render (Option JsString) :=
  write fun log =>
    let json := match stringify host log.length value with
      | .text json => some json
      | .undefined => none
      | .throws => none
    ((target, json), json)

def clampPointer (path : JsString) : Except String JsString :=
  LogClamps.TypeScript.clampUtf8 path pathMaxBytes

/-- One side of `boundEntry`; the outer `none` is a side with no JSON rendering. -/
def boundSide (target : Target) : Option (Side V ν) → Render (Option (Option (Json JsString ν)))
  | none => pure (some none)
  | some side => do
    match ← renderJson host target (some side) with
    | none => pure none
    | some json =>
      let clamped ← liftM (LogClamps.TypeScript.clampUtf8 json shadowMismatchSideMaxBytes)
      pure (some (some (if clamped = json then host.parse json else .string clamped)))

def boundEntry (index : ℕ) (entry : RawMismatchEntry V ν) : Render (Option (BoundedEntry ν)) := do
  let path ← liftM (clampPointer entry.path)
  match ← boundSide host (.entry index .cached) entry.cached with
  | none => pure none
  | some cached =>
    match ← boundSide host (.entry index .source) entry.source with
    | none => pure none
    | some source => pure (some ⟨path, cached, source⟩)

/-- The loop of `renderDiffJson`, which stops at the first entry with no rendering. -/
def boundEntries : ℕ → List (RawMismatchEntry V ν) → Render (Option (List (BoundedEntry ν)))
  | _, [] => pure (some [])
  | index, entry :: rest => do
    match ← boundEntry host index entry with
    | none => pure none
    | some bounded =>
      match ← boundEntries (index + 1) rest with
      | none => pure none
      | some others => pure (some (bounded :: others))

def renderDiffJson (entries : List (RawMismatchEntry V ν)) : Render (Option JsString) := do
  match ← boundEntries host 0 entries with
  | none => pure none
  | some bounded =>
    let json ← liftM
      (LogClamps.TypeScript.clampUtf8 (host.stringifyEntries bounded) shadowLogDiffMaxBytes)
    pure (some json)

/-! ### Differences -/

def Property.read : Property V → Option (Option V)
  | .throws => none
  | .value v => some v

/-- One turn of the loop over the members; `none` is a throw. -/
def readMember : Option (Member V) → Option (RawMismatchEntry V ν)
  | none => none
  | some member => do
    let path ← member.path.read
    let cached ← member.cached.read
    let source ← member.source.read
    let path ← host.string path
    return ⟨path, cached.map .value, source.map .value⟩

def runShadowMismatchHook : HookResult V → Option (RawMismatchDiff V ν)
  | .throws => none
  | .promiseLike => none
  | .other => none
  | .array members length => do
    let entries ← (members.take maxEntries).mapM (readMember host)
    return ⟨entries, length⟩

section Walks

variable {δ : Type} [DecidableEq δ] (double : ν → δ)

/-- `null` is an absent side. -/
def walkRenderedJson (cachedJson sourceJson : Option JsString) : RawMismatchDiff V ν :=
  if cachedJson = sourceJson then ⟨[], 0⟩
  else
    match cachedJson, sourceJson with
    | some cached, some source =>
      let walk := DifferenceWalks.TypeScript.walkJson double host.keys (host.parse cached)
        (host.parse source)
      ⟨walk.entries.map fun entry => ⟨JsonPointers.TypeScript.keptPointer entry.tokens,
        entry.cached.map .json, entry.source.map .json⟩, walk.count⟩
    | cached, source =>
      ⟨[⟨[], cached.map fun json => .json (host.parse json),
        source.map fun json => .json (host.parse json)⟩], 1⟩

end Walks

/-! ### The fields -/

/-- A field that is not requested is `none`, and `null` is `some none`. -/
structure DiffFields where
  mismatchPaths : Option (Option (List JsString))
  mismatchPathCount : Option (Option ℕ)
  diffJson : Option (Option JsString)

structure ShadowMismatchLogFields extends DiffFields where
  cachedValueJson : Option (Option JsString)
  sourceValueJson : Option (Option JsString)

inductive ShadowMismatchLogFailure where
  | hookError
  | renderError
deriving DecidableEq

def failureOf (diffFailed renderFailed : Bool) : Option ShadowMismatchLogFailure :=
  if diffFailed then some .hookError else if renderFailed then some .renderError else none

structure ShadowMismatchLogContent where
  fields : ShadowMismatchLogFields
  failure : Option ShadowMismatchLogFailure

/-- Only the level `values` renders a side of an entry. -/
def renderEntries (level : ShadowMismatchDiffLevel) (entries : List (RawMismatchEntry V ν)) :
    Render (Option JsString) :=
  if level = .values then renderDiffJson host entries else pure none

/-- The difference fields of a diff, and whether an entry had no rendering. -/
def renderDiffFields (level : ShadowMismatchDiffLevel) :
    Option (RawMismatchDiff V ν) → Render (DiffFields × Bool)
  | none => pure (⟨some none, some none, if level = .values then some none else none⟩, false)
  | some diff => do
    let diffJson ← renderEntries host level diff.entries
    let mismatchPaths ← liftM (diff.entries.mapM fun entry => clampPointer entry.path)
    pure (⟨some (some mismatchPaths), some (some diff.count),
      if level = .values then some diffJson else none⟩, level = .values && diffJson.isNone)

/-- A value field, where values are requested. -/
def valueField (requested : Bool) : Option JsString → Except String (Option (Option JsString))
  | none => .ok (if requested then some none else none)
  | some json =>
    if requested then
      (LogClamps.TypeScript.clampUtf8 json shadowLogValueMaxBytes).map fun text => some (some text)
    else .ok none

def renderSide (requested : Bool) (side : SideName) (value : Option V) : Render (Option JsString) :=
  if requested then renderJson host (.root side) (value.map .value) else pure none

/-- The difference fields, where they are requested. -/
def renderDifference (level : ShadowMismatchDiffLevel) (diff : Option (RawMismatchDiff V ν)) :
    Render (DiffFields × Bool) :=
  if level = .off then pure (⟨none, none, none⟩, false) else renderDiffFields host level diff

/-- The difference: that of the hook, where there is one, and otherwise that of the built-in walk,
unless a side has no rendering. -/
def difference (walk : Option JsString → Option JsString → RawMismatchDiff V ν)
    (hook : Option (HookResult V)) (sideFailed : Bool) (cachedJson sourceJson : Option JsString) :
    Option (RawMismatchDiff V ν) :=
  match hook with
  | some hook => runShadowMismatchHook host hook
  | none => if sideFailed then none else some (walk cachedJson sourceJson)

/-- `renderShadowMismatchLog` over a built-in walk. -/
def renderWith (walk : Option JsString → Option JsString → RawMismatchDiff V ν)
    (plan : ShadowMismatchLogPlan) (cachedValue sourceValue : Option V)
    (hook : Option (HookResult V)) : Render ShadowMismatchLogContent := do
  let renderSides := plan.value || (decide (plan.diff ≠ .off) && hook.isNone)
  let cachedJson ← renderSide host renderSides .cached cachedValue
  let sourceJson ← renderSide host renderSides .source sourceValue
  let sideFailed := renderSides &&
    ((cachedJson.isNone && cachedValue.isSome) || (sourceJson.isNone && sourceValue.isSome))
  let diff := difference host walk hook sideFailed cachedJson sourceJson
  let diffFailed := decide (plan.diff ≠ .off) && hook.isSome && diff.isNone
  let (diffFields, entryFailed) ← renderDifference host plan.diff diff
  let cachedValueJson ← liftM (valueField plan.value cachedJson)
  let sourceValueJson ← liftM (valueField plan.value sourceJson)
  return ⟨⟨diffFields, cachedValueJson, sourceValueJson⟩,
    failureOf diffFailed (sideFailed || entryFailed)⟩

variable {δ : Type} [DecidableEq δ] (double : ν → δ)

def renderShadowMismatchLog (plan : ShadowMismatchLogPlan) (cachedValue sourceValue : Option V)
    (hook : Option (HookResult V)) : Render ShadowMismatchLogContent :=
  renderWith host (walkRenderedJson host double) plan cachedValue sourceValue hook

end Rendering

/-! ### Clamps -/

theorem byteLength_withoutByteOrderMark_le (s : Text) :
    byteLength (LogClamps.TypeScript.withoutByteOrderMark s) ≤ byteLength s := by
  cases s with
  | nil => exact Nat.le_refl _
  | cons c cs =>
    rw [LogClamps.TypeScript.withoutByteOrderMark]
    split
    · rw [byteLength_cons]
      exact Nat.le_add_left _ _
    · exact Nat.le_refl _

/-- Clamping does not throw, and what it returns fits. -/
theorem clampUtf8_bounded {maxBytes : ℕ} (hmax : 14 ≤ maxBytes) (value : JsString) :
    ∃ text, LogClamps.TypeScript.clampUtf8 value maxBytes = .ok text ∧
      byteLength (scalars text) ≤ maxBytes := by
  rw [LogClamps.TypeScript.clampUtf8_eq hmax]
  refine ⟨_, rfl, ?_⟩
  split
  · assumption
  · rw [scalars_units]
    have hcut := byteLength_withoutByteOrderMark_le
      (fitting (maxBytes - 14) (scalars value) ++ marker)
    have hfits := byteLength_fitting_le (maxBytes - 14) (scalars value)
    rw [byteLength_append, byteLength_marker] at hcut
    omega

theorem clampPaths_bounded {V ν : Type} (entries : List (RawMismatchEntry V ν)) :
    ∃ paths, (entries.mapM fun entry => clampPointer entry.path) = .ok paths ∧
      paths.length = entries.length ∧ ∀ path ∈ paths, byteLength (scalars path) ≤ pathMaxBytes := by
  induction entries with
  | nil => exact ⟨[], rfl, rfl, fun _ h => absurd h List.not_mem_nil⟩
  | cons entry rest ih =>
    obtain ⟨path, hpath, hfits⟩ := clampUtf8_bounded (show 14 ≤ pathMaxBytes by decide) entry.path
    obtain ⟨paths, hpaths, hlength, hall⟩ := ih
    refine ⟨path :: paths, ?_, congrArg (· + 1) hlength, ?_⟩
    · rw [List.mapM_cons, clampPointer, hpath, hpaths]
      rfl
    · rw [List.forall_mem_cons]
      exact ⟨hfits, hall⟩

theorem valueField_bounded (requested : Bool) (json : Option JsString) :
    ∃ field, valueField requested json = .ok field ∧ field.isSome = requested ∧
      (json ≠ none → field ≠ some none) ∧
      ∀ text, field = some (some text) → byteLength (scalars text) ≤ shadowLogValueMaxBytes := by
  cases json with
  | none =>
    refine ⟨_, rfl, ?_, by simp, ?_⟩
    · cases requested <;> rfl
    · cases requested <;> simp
  | some json =>
    rw [valueField]
    cases requested with
    | false => exact ⟨none, rfl, rfl, by simp, fun _ h => by cases h⟩
    | true =>
      obtain ⟨text, htext, hfits⟩ :=
        clampUtf8_bounded (show 14 ≤ shadowLogValueMaxBytes by decide) json
      rw [if_pos rfl, htext]
      refine ⟨_, rfl, rfl, by simp, ?_⟩
      intro other hother
      obtain rfl := Option.some.inj (Option.some.inj hother)
      exact hfits

/-! ### Renderings -/

/-- The renderings of entry sides, and whether one of them had no answer. -/
def EntryRenderings (failed : Bool) (written : List Rendered) : Prop :=
  (failed = true ↔ ∃ rendered ∈ written, rendered.2 = none) ∧
    ∀ rendered ∈ written, ∃ index side, rendered.1 = .entry index side

theorem EntryRenderings.empty : EntryRenderings false [] := ⟨by simp, by simp⟩

/-- After a first part that was rendered, the second part decides. -/
theorem EntryRenderings.append {failed : Bool} {first second : List Rendered}
    (h : EntryRenderings false first) (h' : EntryRenderings failed second) :
    EntryRenderings failed (first ++ second) := by
  constructor
  · rw [h'.1]
    constructor
    · rintro ⟨rendered, hmem, hnone⟩
      exact ⟨rendered, List.mem_append_right _ hmem, hnone⟩
    · rintro ⟨rendered, hmem, hnone⟩
      rcases List.mem_append.mp hmem with hmem | hmem
      · cases h.1.mpr ⟨rendered, hmem, hnone⟩
      · exact ⟨rendered, hmem, hnone⟩
  · intro rendered hmem
    rcases List.mem_append.mp hmem with hmem | hmem
    · exact h.2 rendered hmem
    · exact h'.2 rendered hmem

section Renderings

variable {V ν : Type} (host : Host V ν)

theorem completes_renderJson (target : Target) (value : Option (Side V ν)) :
    Completes (renderJson host target value) fun json written => written = [(target, json)] := by
  apply Completes.write
  intro log
  rfl

theorem completes_renderSide (requested : Bool) (side : SideName) (value : Option V) :
    Completes (renderSide host requested side value) fun json written =>
      written = if requested then [(.root side, json)] else [] := by
  rw [renderSide]
  cases requested with
  | true => exact completes_renderJson host (.root side) (value.map .value)
  | false => exact Completes.pure rfl

theorem completes_boundSide (index : ℕ) (name : SideName) (side : Option (Side V ν)) :
    Completes (boundSide host (.entry index name) side) fun result written =>
      EntryRenderings result.isNone written := by
  cases side with
  | none => exact Completes.pure .empty
  | some side =>
    apply (completes_renderJson host (.entry index name) (some side)).bind
    rintro json written rfl
    cases json with
    | none =>
      apply Completes.pure
      exact ⟨by simp, by simp⟩
    | some json =>
      obtain ⟨text, htext, -⟩ :=
        clampUtf8_bounded (show 14 ≤ shadowMismatchSideMaxBytes by decide) json
      apply Completes.lift_bind htext
      apply Completes.pure
      exact ⟨by simp, by simp⟩

theorem completes_boundEntry (index : ℕ) (entry : RawMismatchEntry V ν) :
    Completes (boundEntry host index entry) fun result written =>
      EntryRenderings result.isNone written := by
  obtain ⟨path, hpath, -⟩ := clampUtf8_bounded (show 14 ≤ pathMaxBytes by decide) entry.path
  apply Completes.lift_bind hpath
  apply (completes_boundSide host index .cached entry.cached).bind
  intro cached first hfirst
  cases cached with
  | none =>
    apply Completes.pure
    rw [List.append_nil]
    exact hfirst
  | some cached =>
    apply (completes_boundSide host index .source entry.source).bind
    intro source second hsecond
    cases source with
    | none | some source =>
      apply Completes.pure
      rw [List.append_nil]
      exact hfirst.append hsecond

theorem completes_boundEntries (index : ℕ) (entries : List (RawMismatchEntry V ν)) :
    Completes (boundEntries host index entries) fun result written =>
      EntryRenderings result.isNone written := by
  induction entries generalizing index with
  | nil => exact Completes.pure .empty
  | cons entry rest ih =>
    rw [boundEntries]
    apply (completes_boundEntry host index entry).bind
    intro bounded first hfirst
    cases bounded with
    | none =>
      apply Completes.pure
      rw [List.append_nil]
      exact hfirst
    | some bounded =>
      apply (ih (index + 1)).bind
      intro others second hsecond
      cases others with
      | none | some others =>
        apply Completes.pure
        rw [List.append_nil]
        exact hfirst.append hsecond

theorem completes_renderDiffJson (entries : List (RawMismatchEntry V ν)) :
    Completes (renderDiffJson host entries) fun result written =>
      EntryRenderings result.isNone written ∧
        ∀ json, result = some json → byteLength (scalars json) ≤ shadowLogDiffMaxBytes := by
  apply (completes_boundEntries host 0 entries).bind
  intro bounded written hwritten
  cases bounded with
  | none =>
    apply Completes.pure
    rw [List.append_nil]
    exact ⟨hwritten, fun _ h => by cases h⟩
  | some bounded =>
    obtain ⟨text, htext, hfits⟩ := clampUtf8_bounded (show 14 ≤ shadowLogDiffMaxBytes by decide)
      (host.stringifyEntries bounded)
    apply Completes.lift_bind htext
    apply Completes.pure
    rw [List.append_nil]
    refine ⟨hwritten, ?_⟩
    intro json hjson
    obtain rfl := Option.some.inj hjson
    exact hfits

/-! ### Differences -/

/-- Entries that are cut at the cap, with a count that covers them where it is `counted`. -/
def RawMismatchDiff.Cut (counted : Prop) (diff : RawMismatchDiff V ν) : Prop :=
  diff.entries.length ≤ maxEntries ∧ (counted → diff.entries.length ≤ diff.count)

/-- Reading its kept members does not shorten the array of a hook below their number. -/
def HookResult.Keeps : HookResult V → Prop
  | .array members length => min maxEntries members.length ≤ length
  | _ => True

theorem length_mapM {α β : Type} {f : α → Option β} {l : List α} {l' : List β}
    (h : l.mapM f = some l') : l'.length = l.length := by
  induction l generalizing l' with
  | nil =>
    rw [List.mapM_nil] at h
    obtain rfl := Option.some.inj h
    rfl
  | cons a l ih =>
    rw [List.mapM_cons] at h
    obtain ⟨b, -, h⟩ := Option.bind_eq_some_iff.mp h
    obtain ⟨bs, hbs, h⟩ := Option.bind_eq_some_iff.mp h
    obtain rfl := Option.some.inj h
    exact congrArg (· + 1) (ih hbs)

theorem cut_of_hook {hook : HookResult V} {diff : RawMismatchDiff V ν}
    (h : runShadowMismatchHook host hook = some diff) : diff.Cut hook.Keeps := by
  cases hook with
  | array members length =>
    rw [runShadowMismatchHook] at h
    obtain ⟨entries, hentries, hdiff⟩ := Option.bind_eq_some_iff.mp h
    obtain rfl := Option.some.inj hdiff
    have hlength := length_mapM hentries
    rw [List.length_take] at hlength
    exact ⟨hlength ▸ Nat.min_le_left _ _, fun hkeeps => hlength ▸ hkeeps⟩
  | _ => cases h

/-- A hook that throws, breaks its synchronous contract, returns no array, or returns an array with
a member among the kept ones that cannot be read. -/
def HookResult.Fails : HookResult V → Prop
  | .array members _ => ∃ member ∈ members.take maxEntries, readMember host member = none
  | _ => True

theorem hook_fails_iff (hook : HookResult V) :
    runShadowMismatchHook host hook = none ↔ hook.Fails host := by
  cases hook with
  | array members length =>
    have hread := HostKeys.mapM_isSome_iff (f := readMember host) (members.take maxEntries)
    rw [runShadowMismatchHook, HookResult.Fails]
    cases hentries : (members.take maxEntries).mapM (readMember host) with
    | none =>
      rw [hentries] at hread
      refine iff_of_true rfl ?_
      by_contra hall
      have hsome := hread.mpr fun member hmember => by
        rw [Option.isSome_iff_ne_none]
        exact fun hnone => hall ⟨member, hmember, hnone⟩
      cases hsome
    | some entries =>
      rw [hentries] at hread
      refine iff_of_false (by simp) ?_
      rintro ⟨member, hmember, hnone⟩
      have hsome := hread.mp rfl member hmember
      rw [hnone] at hsome
      cases hsome
  | _ => exact iff_of_true rfl trivial

variable {δ : Type} [DecidableEq δ] (double : ν → δ)

theorem cut_walkRenderedJson (cachedJson sourceJson : Option JsString) :
    (walkRenderedJson host double cachedJson sourceJson : RawMismatchDiff V ν).Cut True := by
  have hone : 1 ≤ maxEntries := by decide
  by_cases h : cachedJson = sourceJson
  · rw [walkRenderedJson.eq_def, if_pos h]
    exact ⟨Nat.zero_le _, fun _ => Nat.zero_le _⟩
  · rw [walkRenderedJson.eq_def, if_neg h]
    cases cachedJson with
    | none => exact ⟨hone, fun _ => Nat.le_refl _⟩
    | some cached =>
      cases sourceJson with
      | none => exact ⟨hone, fun _ => Nat.le_refl _⟩
      | some source =>
        dsimp only
        rw [RawMismatchDiff.Cut, List.length_map, DifferenceWalks.TypeScript.walkJson,
          DifferenceWalks.walk_root, List.length_take]
        exact ⟨Nat.min_le_left _ _, fun _ => Nat.min_le_right _ _⟩

/-! ### The fields -/

/-- The difference fields of a level, `null` or bounded, with a count that covers the paths where it
is `counted`. -/
structure DiffFields.Bounded (counted : Prop) (level : ShadowMismatchDiffLevel) (fields : DiffFields) : Prop where
  paths : fields.mismatchPaths.isSome = decide (level ≠ .off)
  count : fields.mismatchPathCount.isSome = decide (level ≠ .off)
  diffJson : fields.diffJson.isSome = decide (level = .values)
  nullCount : fields.mismatchPathCount = some none ↔ fields.mismatchPaths = some none
  bounded : ∀ paths count, fields.mismatchPaths = some (some paths) →
    fields.mismatchPathCount = some (some count) → paths.length ≤ maxEntries ∧
      (counted → paths.length ≤ count) ∧ ∀ path ∈ paths, byteLength (scalars path) ≤ pathMaxBytes
  diffBounded : ∀ json, fields.diffJson = some (some json) →
    byteLength (scalars json) ≤ shadowLogDiffMaxBytes

/-- No difference field has content. -/
structure DiffFields.Null (fields : DiffFields) : Prop where
  paths : fields.mismatchPaths.getD none = none
  count : fields.mismatchPathCount.getD none = none
  diffJson : fields.diffJson.getD none = none

/-- What is rendered for the difference fields of a diff. -/
structure DiffRendered (counted : Prop) (level : ShadowMismatchDiffLevel) (diff : Option (RawMismatchDiff V ν))
    (result : DiffFields × Bool) (written : List Rendered) : Prop where
  bounded : result.1.Bounded counted level
  failed : EntryRenderings result.2 written
  null : diff = none → result.1.Null
  counts : ∀ d, diff = some d → level ≠ .off → result.1.mismatchPathCount = some (some d.count)
  complete : result.2 = false → level = .values → diff ≠ none → result.1.diffJson ≠ some none
  unrendered : level ≠ .values → written = []

theorem completes_renderEntries (level : ShadowMismatchDiffLevel)
    (entries : List (RawMismatchEntry V ν)) :
    Completes (renderEntries host level entries) fun diffJson written =>
      EntryRenderings (level = .values && diffJson.isNone) written ∧
        (level ≠ .values → written = []) ∧
        ∀ json, diffJson = some json → byteLength (scalars json) ≤ shadowLogDiffMaxBytes := by
  rw [renderEntries]
  by_cases hvalues : level = .values
  · rw [if_pos hvalues]
    apply (completes_renderDiffJson host entries).mono
    rintro diffJson written ⟨hwritten, hjson⟩
    refine ⟨?_, fun h => absurd hvalues h, hjson⟩
    rw [decide_eq_true hvalues, Bool.true_and]
    exact hwritten
  · rw [if_neg hvalues]
    apply Completes.pure
    rw [decide_eq_false hvalues, Bool.false_and]
    exact ⟨.empty, fun _ => rfl, fun _ h => by cases h⟩

theorem completes_renderDiffFields {counted : Prop} {level : ShadowMismatchDiffLevel}
    (hlevel : level ≠ .off) {diff : Option (RawMismatchDiff V ν)}
    (hcut : ∀ d, diff = some d → d.Cut counted) :
    Completes (renderDiffFields host level diff) (DiffRendered counted level diff) := by
  cases diff with
  | none =>
    apply Completes.pure
    refine ⟨⟨?_, ?_, ?_, ⟨fun _ => rfl, fun _ => rfl⟩, ?_, ?_⟩, .empty, fun _ => ⟨rfl, rfl, ?_⟩,
      by simp, by simp, fun _ => rfl⟩
    · simp [hlevel]
    · simp [hlevel]
    · by_cases hvalues : level = .values <;> simp [hvalues]
    · intro paths count hpaths
      cases hpaths
    · by_cases hvalues : level = .values <;> simp [hvalues]
    · by_cases hvalues : level = .values <;> simp [hvalues]
  | some diff =>
    obtain ⟨hentries, hcount⟩ := hcut diff rfl
    obtain ⟨paths, hpaths, hlength, hfits⟩ := clampPaths_bounded diff.entries
    apply (completes_renderEntries host level diff.entries).bind
    rintro diffJson written ⟨hwritten, hunrendered, hjson⟩
    apply Completes.lift_bind hpaths
    apply Completes.pure
    rw [List.append_nil]
    refine ⟨⟨?_, ?_, ?_, ?_, ?_, ?_⟩, hwritten, by simp, ?_, ?_, hunrendered⟩
    · simp [hlevel]
    · simp [hlevel]
    · by_cases hvalues : level = .values <;> simp [hvalues]
    · simp
    · rintro paths' count hpaths' hcount'
      obtain rfl := Option.some.inj (Option.some.inj hpaths')
      obtain rfl := Option.some.inj (Option.some.inj hcount')
      rw [hlength]
      exact ⟨hentries, hcount, hfits⟩
    · intro json hfield
      by_cases hvalues : level = .values
      · simp only [hvalues, if_true] at hfield
        exact hjson json (Option.some.inj hfield)
      · simp [hvalues] at hfield
    · intro d hd _
      cases hd
      rfl
    · intro hfailed hvalues _
      simpa [hvalues, Option.isSome_iff_ne_none] using hfailed

theorem completes_renderDifference {counted : Prop} {level : ShadowMismatchDiffLevel}
    {diff : Option (RawMismatchDiff V ν)} (hcut : ∀ d, diff = some d → d.Cut counted) :
    Completes (renderDifference host level diff) (DiffRendered counted level diff) := by
  rw [renderDifference]
  by_cases hoff : level = .off
  · rw [if_pos hoff]
    apply Completes.pure
    subst hoff
    exact ⟨⟨rfl, rfl, rfl, by simp, by simp, by simp⟩, .empty, fun _ => ⟨rfl, rfl, rfl⟩,
      by simp, by simp, fun _ => rfl⟩
  · rw [if_neg hoff]
    exact completes_renderDiffFields host hoff hcut

end Renderings

/-! ### The whole log -/

/-- The fields that the plan requests, `null` or bounded. -/
structure ShadowMismatchLogFields.Bounded (counted : Prop) (plan : ShadowMismatchLogPlan)
    (fields : ShadowMismatchLogFields) : Prop where
  diff : fields.toDiffFields.Bounded counted plan.diff
  cachedValueJson : fields.cachedValueJson.isSome = plan.value
  sourceValueJson : fields.sourceValueJson.isSome = plan.value
  cachedBounded : ∀ json, fields.cachedValueJson = some (some json) →
    byteLength (scalars json) ≤ shadowLogValueMaxBytes
  sourceBounded : ∀ json, fields.sourceValueJson = some (some json) →
    byteLength (scalars json) ≤ shadowLogValueMaxBytes

/-- The requested fields have content, but for the whole value that is `undefined`. -/
structure ShadowMismatchLogFields.Complete {V : Type} (plan : ShadowMismatchLogPlan)
    (cachedValue sourceValue : Option V) (fields : ShadowMismatchLogFields) : Prop where
  paths : plan.diff ≠ .off → fields.mismatchPaths ≠ some none
  diffJson : plan.diff = .values → fields.diffJson ≠ some none
  cachedValueJson : plan.value = true → cachedValue ≠ none → fields.cachedValueJson ≠ some none
  sourceValueJson : plan.value = true → sourceValue ≠ none → fields.sourceValueJson ≠ some none

section WholeLog

variable {V ν : Type} (host : Host V ν) (plan : ShadowMismatchLogPlan)
  (cachedValue sourceValue : Option V) (hook : Option (HookResult V))

/-- A rendering without an answer, other than that of a whole value that is `undefined`. -/
def Unrendered (rendered : Rendered) : Prop :=
  rendered.2 = none ∧ (rendered.1 = .root .cached → cachedValue ≠ none) ∧
    (rendered.1 = .root .source → sourceValue ≠ none)

/-- A hook was used for a requested difference, and it failed. -/
def HookFailed : Prop := plan.diff ≠ .off ∧ ∃ result, hook = some result ∧ result.Fails host

/-- What is logged for a mismatch, and what was rendered for it. -/
structure Logs (content : ShadowMismatchLogContent) (written : List Rendered) : Prop where
  bounded : content.fields.Bounded (∀ result ∈ hook, result.Keeps) plan
  hookCount : ∀ members length, hook = some (.array members length) → plan.diff ≠ .off →
    ¬ HookFailed host plan hook → content.fields.mismatchPathCount = some (some length)
  complete : content.failure = none → content.fields.Complete plan cachedValue sourceValue
  hookError : content.failure = some .hookError ↔ HookFailed host plan hook
  renderError : content.failure = some .renderError ↔ ¬ HookFailed host plan hook ∧
    ∃ rendered ∈ written, Unrendered cachedValue sourceValue rendered
  closed : HookFailed host plan hook → content.fields.toDiffFields.Null
  unrendered : plan.diff ≠ .values → ∀ rendered ∈ written, ∃ side, rendered.1 = .root side

theorem sideFailed_iff (requested : Bool) (cachedJson sourceJson : Option JsString) :
    (requested && ((cachedJson.isNone && cachedValue.isSome) ||
        (sourceJson.isNone && sourceValue.isSome))) = true ↔
      ∃ rendered ∈ (if requested then [(Target.root .cached, cachedJson)] else []) ++
        (if requested then [(Target.root .source, sourceJson)] else []),
          Unrendered cachedValue sourceValue rendered := by
  cases requested with
  | false => simp
  | true =>
    simp [Unrendered, Option.isSome_iff_ne_none]

variable {sideFailed : Bool}

/-- The renderings of the sides, followed by those of entries. -/
theorem unrendered_iff {entryFailed : Bool} {sides entries : List Rendered}
    (hsides : sideFailed = true ↔ ∃ rendered ∈ sides, Unrendered cachedValue sourceValue rendered)
    (hentries : EntryRenderings entryFailed entries) :
    (∃ rendered ∈ sides ++ entries, Unrendered cachedValue sourceValue rendered) ↔
      (sideFailed || entryFailed) = true := by
  rw [Bool.or_eq_true, hsides, hentries.1]
  constructor
  · rintro ⟨rendered, hmem, hunrendered⟩
    rcases List.mem_append.mp hmem with hmem | hmem
    · exact .inl ⟨rendered, hmem, hunrendered⟩
    · exact .inr ⟨rendered, hmem, hunrendered.1⟩
  · rintro (⟨rendered, hmem, hunrendered⟩ | ⟨rendered, hmem, hnone⟩)
    · exact ⟨rendered, List.mem_append_left _ hmem, hunrendered⟩
    · obtain ⟨index, side, htarget⟩ := hentries.2 rendered hmem
      refine ⟨rendered, List.mem_append_right _ hmem, hnone, ?_, ?_⟩
      · intro hroot
        rw [htarget] at hroot
        cases hroot
      · intro hroot
        rw [htarget] at hroot
        cases hroot

section Differences

variable {walk : Option JsString → Option JsString → RawMismatchDiff V ν}

variable {cachedJson sourceJson : Option JsString}

theorem cut_difference (hwalk : ∀ cachedJson sourceJson, (walk cachedJson sourceJson).Cut True)
    {diff : RawMismatchDiff V ν}
    (h : difference host walk hook sideFailed cachedJson sourceJson = some diff) :
    diff.Cut (∀ result ∈ hook, result.Keeps) := by
  cases hook with
  | some result =>
    obtain ⟨hcut, hcount⟩ := cut_of_hook host h
    exact ⟨hcut, fun hkeeps => hcount (hkeeps result rfl)⟩
  | none =>
    cases sideFailed with
    | true => cases h
    | false =>
      obtain rfl := Option.some.inj h
      exact ⟨(hwalk cachedJson sourceJson).1, fun _ => (hwalk cachedJson sourceJson).2 trivial⟩

theorem hookFailed_iff (sideFailed : Bool) (cachedJson sourceJson : Option JsString) :
    (decide (plan.diff ≠ .off) && hook.isSome &&
        (difference host walk hook sideFailed cachedJson sourceJson).isNone) = true ↔
      HookFailed host plan hook := by
  cases hook with
  | none => simp [HookFailed]
  | some result =>
    simp [HookFailed, difference, hook_fails_iff]

/-- Without a failure there is a difference. -/
theorem difference_ne_none (hoff : plan.diff ≠ .off) (hhook : ¬ HookFailed host plan hook)
    (hside : hook = none → sideFailed = false) :
    difference host walk hook sideFailed cachedJson sourceJson ≠ none := by
  cases hook with
  | none => simp [difference, hside rfl]
  | some result =>
    intro hnone
    exact hhook ⟨hoff, result, rfl, (hook_fails_iff host result).mp hnone⟩

theorem count_of_hook {members : List (Option (Member V))} {length : ℕ} {diff : RawMismatchDiff V ν}
    (h : difference host walk (some (.array members length)) sideFailed cachedJson sourceJson =
      some diff) :
    diff.count = length := by
  rw [difference, runShadowMismatchHook] at h
  obtain ⟨entries, -, hdiff⟩ := Option.bind_eq_some_iff.mp h
  obtain rfl := Option.some.inj hdiff
  rfl

theorem difference_eq_none (h : HookFailed host plan hook) :
    difference host walk hook sideFailed cachedJson sourceJson = none := by
  obtain ⟨-, result, rfl, hfails⟩ := h
  exact (hook_fails_iff host result).mpr hfails

end Differences

/-- The failure that is reported. -/
theorem failure_iff (diffFailed renderFailed : Bool) :
    (failureOf diffFailed renderFailed = some .hookError ↔ diffFailed = true) ∧
      (failureOf diffFailed renderFailed = some .renderError ↔
        ¬ diffFailed = true ∧ renderFailed = true) ∧
      (failureOf diffFailed renderFailed = none ↔ ¬ diffFailed = true ∧ renderFailed = false) := by
  cases diffFailed <;> cases renderFailed <;> simp [failureOf]

theorem completes_renderWith {walk : Option JsString → Option JsString → RawMismatchDiff V ν}
    (hwalk : ∀ cachedJson sourceJson, (walk cachedJson sourceJson).Cut True) :
    Completes (renderWith host walk plan cachedValue sourceValue hook)
      (Logs host plan cachedValue sourceValue hook) := by
  rw [renderWith]
  apply (completes_renderSide host _ .cached cachedValue).bind
  rintro cachedJson first hfirst
  apply (completes_renderSide host _ .source sourceValue).bind
  rintro sourceJson second hsecond
  have hsides := sideFailed_iff cachedValue sourceValue
    (plan.value || (decide (plan.diff ≠ .off) && hook.isNone)) cachedJson sourceJson
  have hroots : ∀ rendered ∈ first ++ second, ∃ side, rendered.1 = Target.root side := by
    rw [hfirst, hsecond]
    cases plan.value || (decide (plan.diff ≠ .off) && hook.isNone) <;> simp
  rw [← hfirst, ← hsecond] at hsides
  dsimp only
  apply (completes_renderDifference host fun d => cut_difference host hook hwalk).bind
  rintro ⟨diffFields, entryFailed⟩ entries hdiff
  obtain ⟨cachedField, hcached, hcachedSome, hcachedFull, hcachedFits⟩ :=
    valueField_bounded plan.value cachedJson
  obtain ⟨sourceField, hsource, hsourceSome, hsourceFull, hsourceFits⟩ :=
    valueField_bounded plan.value sourceJson
  apply Completes.lift_bind hcached
  apply Completes.lift_bind hsource
  apply Completes.pure
  rw [List.append_nil, ← List.append_assoc]
  generalize hside : ((plan.value || (decide (plan.diff ≠ .off) && hook.isNone)) &&
    ((cachedJson.isNone && cachedValue.isSome) || (sourceJson.isNone && sourceValue.isSome))) =
      sideFailed at hsides hdiff ⊢
  have hfailure := failure_iff (decide (plan.diff ≠ .off) && hook.isSome &&
    (difference host walk hook sideFailed cachedJson sourceJson).isNone)
  have hdifference : plan.diff ≠ .off → ¬ HookFailed host plan hook →
      (hook = none → sideFailed = false) →
      ∃ d, difference host walk hook sideFailed cachedJson sourceJson = some d ∧
        diffFields.mismatchPathCount = some (some d.count) := by
    intro hoff hhook hfailed
    obtain ⟨d, hd⟩ := Option.ne_none_iff_exists'.mp (difference_ne_none host plan hook hoff hhook hfailed)
    exact ⟨d, hd, hdiff.counts d hd hoff⟩
  refine ⟨⟨hdiff.bounded, hcachedSome, hsourceSome, hcachedFits, hsourceFits⟩, ?_, ?_, ?_, ?_, ?_, ?_⟩
  · rintro members length rfl hoff hhook
    obtain ⟨d, hd, hcount⟩ := hdifference hoff hhook (fun h => by cases h)
    rw [hcount, count_of_hook host hd]
  · intro hnone
    obtain ⟨hhook, hrendered⟩ := (hfailure _).2.2.mp hnone
    rw [hookFailed_iff] at hhook
    obtain ⟨rfl, hentryFailed⟩ := Bool.or_eq_false_iff.mp hrendered
    refine ⟨fun hoff => ?_, fun hvalues => ?_, fun hvalue hsome => hcachedFull ?_,
      fun hvalue hsome => hsourceFull ?_⟩
    · obtain ⟨d, -, hcount⟩ := hdifference hoff hhook fun _ => rfl
      rw [Ne, ← hdiff.bounded.nullCount, hcount]
      simp
    · have hoff : plan.diff ≠ .off := by simp [hvalues]
      exact hdiff.complete hentryFailed hvalues
        (difference_ne_none host plan hook hoff hhook fun _ => rfl)
    · rintro rfl
      simp [hvalue, hsome] at hside
    · rintro rfl
      simp [hvalue, hsome] at hside
  · exact (hfailure _).1.trans (hookFailed_iff host plan hook _ _ _)
  · refine (hfailure _).2.1.trans ?_
    rw [hookFailed_iff, unrendered_iff _ _ hsides hdiff.failed]
  · intro hfailed
    exact hdiff.null (difference_eq_none host plan hook hfailed)
  · intro hlevel rendered hmem
    rw [hdiff.unrendered hlevel, List.append_nil] at hmem
    exact hroots rendered hmem

/-- A mismatch log is bounded and fails closed. Rendering never throws; the requested fields, and
no others, are `null` or bounded, the count of a hook being the length that its array has after the
reads; without a failure they have content; a failed hook leaves every difference field `null`; a rendering
without an answer is reported unless a failed hook is; only the level `values` renders a side of an
entry; and under a hook the built-in walk is not used. -/
theorem renderShadowMismatchLog_fails_closed {δ : Type} [DecidableEq δ] (double : ν → δ) :
    (∃ content written,
      renderShadowMismatchLog host double plan cachedValue sourceValue hook [] =
        .ok (content, written) ∧ Logs host plan cachedValue sourceValue hook content written) ∧
    (hook.isSome → ∀ walk, renderWith host walk plan cachedValue sourceValue hook =
      renderShadowMismatchLog host double plan cachedValue sourceValue hook) := by
  constructor
  · exact completes_renderWith host plan cachedValue sourceValue hook
      (cut_walkRenderedJson host double) []
  · intro hsome walk
    obtain ⟨result, rfl⟩ := Option.isSome_iff_exists.mp hsome
    rfl

end WholeLog

/-- A host on which paths are empty strings and nothing has a rendering. -/
def silentHost : Host Unit Unit where
  stringify _ _ := .undefined
  string _ := some []
  parse _ := .null
  stringifyEntries _ := []
  keys := ⟨id, fun _ => List.Perm.refl _⟩

/-- Two paths are logged with the count 0 if reading the first one empties the array. -/
theorem count_below_paths_of_shortened_array :
    ∃ content, renderShadowMismatchLog silentHost id ⟨false, .paths⟩ none none
        (some (.array [some ⟨.value none, .value none, .value none⟩,
          some ⟨.value none, .value none, .value none⟩] 0)) [] = .ok (content, []) ∧
      content.fields.mismatchPaths = some (some [[], []]) ∧
      content.fields.mismatchPathCount = some (some 0) :=
  ⟨_, rfl, rfl, rfl⟩

end DialCache.MismatchLogs
