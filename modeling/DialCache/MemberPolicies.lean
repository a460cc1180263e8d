import DialCache.TypeScriptPolicies

/-!
# Policies held in object members

Rust and Go write the static policy into an object, overlay the reply on its members and resolve
what the members then hold. The members of a merge are described by lookups, and the numeric
domains of the ports are those of the portable definition.
-/

namespace DialCache.PolicyLeaves

open UnicodeText JsonValues PortableKeys PolicyOverlays PolicyPorts RolloutCohorts
open RuntimeConfig (CacheLayer DisabledReason ShadowMismatchDiffLevel maxCacheTtlSec maxTimerDelayMs)

theorem shorthandLeaves_eq (shorthand : Option Json) :
    PolicyPorts.shorthandLeaves shorthand =
      ⟨shorthandValue shorthand, shorthandDiff shorthand, malformedShorthand shorthand⟩ := by
  cases shorthand with
  | none => rfl
  | some leaf =>
    cases leaf with
    | bool value => cases value <;> rfl
    | _ => rfl

/-! ### Lookups after a merge -/

/-- The object at a name, or the empty one. -/
theorem get?_objectAt (merged : Members) (name leaf : String) :
    (((merged.get? name).bind Json.asObject?).getD []).get? leaf =
      (merged.get? name).bind (·.get? leaf) := by
  cases merged.get? name with
  | none => rfl
  | some value => cases value <;> rfl

variable (merged overlay : Members)

/-- The members after one layer map of the overlay was merged. -/
def layered (name : String) : Members :=
  match (overlay.get? name).bind Json.asObject? with
  | none => merged
  | some incoming =>
    merged.insert name (.object
      (Members.insert? (Members.insert? (((merged.get? name).bind Json.asObject?).getD [])
        "local" (incoming.get? "local")) "remote" (incoming.get? "remote")))

theorem get?_layered_of_ne {name other : String} (h : name ≠ other) :
    (layered merged overlay name).get? other = merged.get? other := by
  rw [layered]
  cases (overlay.get? name).bind Json.asObject? with
  | none => rfl
  | some incoming => exact Members.get?_insert_of_ne merged h _

theorem get?_layered (name : String) (layer : CacheLayer) :
    ((layered merged overlay name).get? name).bind (·.get? (layerText layer)) =
      ((overlay.get? name).bind (·.get? (layerText layer))).or
        ((merged.get? name).bind (·.get? (layerText layer))) := by
  rw [layered]
  cases hoverlay : overlay.get? name with
  | none => rfl
  | some incoming =>
    cases incoming with
    | object incoming =>
      change ((merged.insert name _).get? name).bind _ =
        (Members.get? incoming (layerText layer)).or _
      rw [Members.get?_insert_self]
      change Members.get? (Members.insert? (Members.insert? _ _ _) _ _) _ = _
      rw [Members.get?_insert?, Members.get?_insert?, get?_objectAt]
      cases layer <;> simp [layerText]
    | _ => rfl

/-- The members after both layer maps of the overlay were merged. -/
def layers : Members :=
  layered (layered merged overlay "ttlSec") overlay "ramp"

theorem get?_shadow_layers : (layers merged overlay).get? "shadow" = merged.get? "shadow" := by
  rw [layers, get?_layered_of_ne _ _ (by decide), get?_layered_of_ne _ _ (by decide)]

/-- The members after the overlay's scalar leaves were written. -/
def scalars : Members :=
  let merged := merged.insert? "requestLocal" (overlay.get? "requestLocal")
  let merged := merged.insert? "coalesce" (overlay.get? "coalesce")
  let merged := merged.insert? "staleOnErrorMaxAgeSec" (overlay.get? "staleOnErrorMaxAgeSec")
  merged.insert? "remoteReadTimeoutMs" (overlay.get? "remoteReadTimeoutMs")

theorem get?_shadow_scalars : (scalars merged overlay).get? "shadow" = merged.get? "shadow" := by
  simp [scalars, Members.get?_insert?]

/-- Outside the shadow group a merge holds the overlay's leaves over those held before. -/
theorem writtenLeaf_scalars {merged shadowed overlay : Members}
    (h : ∀ {name}, "shadow" ≠ name → shadowed.get? name = (layers merged overlay).get? name)
    {leaf : PolicyLeaf} (hleaf : leaf ∉ [.shadowRamp, .mismatchValue, .mismatchDiff]) :
    writtenLeaf (.object (scalars shadowed overlay)) leaf =
      (writtenLeaf (.object overlay) leaf).or (writtenLeaf (.object merged) leaf) := by
  have hscalar : ∀ name ∈ ["requestLocal", "coalesce", "staleOnErrorMaxAgeSec",
      "remoteReadTimeoutMs"], (scalars shadowed overlay).get? name =
        (overlay.get? name).or (merged.get? name) := by
    simp [scalars, Members.get?_insert?, h, layers, get?_layered_of_ne]
  have hlayers : ∀ name ∈ ["ttlSec", "ramp"], (scalars shadowed overlay).get? name =
      (layers merged overlay).get? name := by
    simp [scalars, Members.get?_insert?, h]
  cases leaf with
  | ttlSec layer =>
    change ((scalars shadowed overlay).get? "ttlSec").bind _ = _
    rw [hlayers "ttlSec" (by simp), layers, get?_layered_of_ne _ _ (by decide)]
    exact get?_layered merged overlay "ttlSec" layer
  | ramp layer =>
    change ((scalars shadowed overlay).get? "ramp").bind _ = _
    rw [hlayers "ramp" (by simp), layers, get?_layered, get?_layered_of_ne _ _ (by decide)]
    rfl
  | requestLocal => exact hscalar "requestLocal" (by simp)
  | coalesce => exact hscalar "coalesce" (by simp)
  | staleOnErrorMaxAgeSec => exact hscalar "staleOnErrorMaxAgeSec" (by simp)
  | remoteReadTimeoutMs => exact hscalar "remoteReadTimeoutMs" (by simp)
  | _ => simp at hleaf

/-- What a map of both layers holds. -/
theorem get?_layerPair (onLocal onRemote : Option Json) (layer : CacheLayer) :
    (Members.insert? (Members.insert? [] "local" onLocal) "remote" onRemote).get? (layerText layer) =
      match layer with
      | .LOCAL => onLocal
      | .REMOTE => onRemote := by
  cases layer <;> simp [layerText, Members.get?_insert?]

/-- What a group of mismatch leaves holds. -/
theorem get?_group (value diff : Option Json) :
    (Members.insert? (Members.insert? [] "value" value) "diff" diff).get? "value" = value ∧
      (Members.insert? (Members.insert? [] "value" value) "diff" diff).get? "diff" = diff := by
  simp [Members.get?_insert?]

/-! ### Numeric domains -/

theorem finiteRange_whole (value : Json) (max : ℕ) :
    finiteRange value 1 max true = (wholeNumber value max).map (Nat.cast : ℕ → ℚ) := by
  rw [finiteRange, wholeNumber]
  cases value.asNumber? with
  | none => rfl
  | some q =>
    simp only
    by_cases hint : q.den = 1
    · have hq := rat_eq_num hint
      have hlow : 1 ≤ q ↔ 0 < q := by
        rw [hq]
        constructor
        · intro h
          exact lt_of_lt_of_le one_pos h
        · intro h
          have hnum : (0 : ℤ) < q.num := by exact_mod_cast h
          exact_mod_cast hnum
      by_cases hrange : 0 < q ∧ q ≤ max
      · have hnum : ((q.num.toNat : ℕ) : ℚ) = q := by
          have hpos := Rat.num_pos.mpr hrange.1
          have hcast : ((q.num.toNat : ℕ) : ℤ) = q.num := Int.toNat_of_nonneg hpos.le
          rw [show ((q.num.toNat : ℕ) : ℚ) = (((q.num.toNat : ℕ) : ℤ) : ℚ) from rfl, hcast, ← hq]
        rw [if_pos ⟨hlow.mpr hrange.1, hrange.2, fun _ => hint⟩, if_pos ⟨hint, hrange⟩,
          Option.map_some, hnum]
      · rw [if_neg fun h => hrange ⟨hlow.mp h.1, h.2.1⟩, if_neg fun h => hrange h.2]
        rfl
    · rw [if_neg fun h => hint (h.2.2 trivial), if_neg fun h => hint h.1]
      rfl

theorem finiteRange_percentage (value : Json) : finiteRange value 0 100 false = percentage value := by
  rw [finiteRange, percentage]
  cases value.asNumber? with
  | none => rfl
  | some q => simp

theorem configuredRamp_eq (leaf : Option Json) : configuredRamp leaf = rampSpec leaf := by
  cases leaf with
  | none => rfl
  | some leaf => exact finiteRange_percentage leaf

theorem percentage_range {value : Json} {ramp : ℚ} (h : percentage value = some ramp) :
    0 ≤ ramp ∧ ramp ≤ 100 := by
  rw [percentage] at h
  cases hnumber : value.asNumber? with
  | none =>
    rw [hnumber] at h
    cases h
  | some q =>
    simp only [hnumber] at h
    split at h
    · rename_i hrange
      obtain rfl := Option.some.inj h
      exact hrange
    · cases h

theorem rampSpec_nonneg {leaf : Option Json} {ramp : ℚ} (h : rampSpec leaf = some ramp) :
    0 ≤ ramp := by
  cases leaf with
  | none =>
    obtain rfl := Option.some.inj h
    norm_num
  | some leaf => exact (percentage_range h).1

theorem wholeNumber_pos {value : Json} {max n : ℕ} (h : wholeNumber value max = some n) : 0 < n := by
  rw [wholeNumber] at h
  cases hnumber : value.asNumber? with
  | none =>
    rw [hnumber] at h
    cases h
  | some q =>
    simp only [hnumber] at h
    split at h
    · rename_i hrange
      have hpos := Rat.num_pos.mpr hrange.2.1
      have hn := Option.some.inj h
      omega
    · cases h

/-- The flags of a merge that starts from their defaults. -/
def withDefaults (leaf : PolicyLeaf → Option Json) : PolicyLeaf → Option Json
  | .requestLocal => (leaf .requestLocal).or (some (.bool false))
  | .coalesce => (leaf .coalesce).or (some (.bool true))
  | name => leaf name

theorem flagSpec_or (first second : Option Json) (default : Bool) :
    flagSpec (first.or (second.or (some (.bool default)))) default =
      flagSpec (first.or second) default := by
  cases first with
  | some leaf => rfl
  | none =>
    cases second with
    | some leaf => rfl
    | none => rfl

theorem resolveLeaves_withDefaults (written leaf : PolicyLeaf → Option Json) (malformed : Bool)
    (key : Text) (instanceTimeoutMs : ℕ) :
    resolveLeaves (fun name => (written name).or (withDefaults leaf name)) malformed key
        instanceTimeoutMs =
      resolveLeaves (fun name => (written name).or (leaf name)) malformed key instanceTimeoutMs := by
  rw [resolveLeaves, resolveLeaves, Resolved.mk.injEq]
  exact ⟨flagSpec_or _ _ _, flagSpec_or _ _ _, rfl, rfl, rfl, rfl, rfl, rfl, rfl, rfl, rfl, rfl⟩

/-- The members that are checked after a merge are of the right kind. -/
structure Settled (leaf : PolicyLeaf → Option Json) : Prop where
  requestLocal : ((leaf .requestLocal).bind Json.asBool?).isSome = true
  coalesce : ((leaf .coalesce).bind Json.asBool?).isSome = true
  remoteReadTimeoutMs : deadlineOrAbsent (leaf .remoteReadTimeoutMs) = true

theorem flag_settled_iff (written : Option Json) (inherited : Option Bool) (default : Bool) :
    (((written.or ((inherited.map Json.bool).or (some (.bool default))))).bind Json.asBool?).isSome =
      booleanOrAbsent written := by
  cases written with
  | some leaf => rfl
  | none =>
    cases inherited with
    | some flag => rfl
    | none => rfl

theorem wholeNumber_natural {n max : ℕ} (h : 0 < n ∧ n ≤ max) :
    wholeNumber (natural n) max = some n := by
  have hrange : (n : ℚ).den = 1 ∧ (0 : ℚ) < n ∧ (n : ℚ) ≤ max :=
    ⟨Rat.den_natCast n, by exact_mod_cast h.1, by exact_mod_cast h.2⟩
  rw [wholeNumber]
  change (if (n : ℚ).den = 1 ∧ (0 : ℚ) < n ∧ (n : ℚ) ≤ max then some (n : ℚ).num.toNat else none) = _
  rw [if_pos hrange, Rat.num_natCast, Int.toNat_natCast]

/-- A static policy leaves only the overlay's own leaves to be checked. -/
theorem settled_merged_iff (policy : StaticPolicy) (written : PolicyLeaf → Option Json) :
    Settled (fun name => (written name).or (withDefaults (staticLeaf policy) name)) ↔
      booleanOrAbsent (written .requestLocal) = true ∧ booleanOrAbsent (written .coalesce) = true ∧
        deadlineOrAbsent (written .remoteReadTimeoutMs) = true := by
  have hdeadline : deadlineOrAbsent ((written .remoteReadTimeoutMs).or
      (policy.remoteReadTimeoutMs.map natural)) = deadlineOrAbsent (written .remoteReadTimeoutMs) := by
    cases written .remoteReadTimeoutMs with
    | some leaf => rfl
    | none =>
      cases htimeout : policy.remoteReadTimeoutMs with
      | none => rfl
      | some ms =>
        change (wholeNumber (natural ms) maxTimerDelayMs).isSome = true
        rw [wholeNumber_natural (policy.timeout_range ms htimeout)]
        rfl
  have hrequestLocal := flag_settled_iff (written .requestLocal) policy.requestLocal false
  have hcoalesce := flag_settled_iff (written .coalesce) policy.coalesce true
  constructor
  · intro h
    exact ⟨hrequestLocal.symm.trans h.requestLocal, hcoalesce.symm.trans h.coalesce,
      hdeadline.symm.trans h.remoteReadTimeoutMs⟩
  · intro h
    exact ⟨hrequestLocal.trans h.1, hcoalesce.trans h.2.1, hdeadline.trans h.2.2⟩

/-- The shape that an overlay must have before its leaves are read. -/
structure Shaped (overlay : Json) : Prop where
  shape : overlay.asObject?.isSome = true
  renamed : overlay.get? "shadowRamp" = none
  ttlSec : objectOrAbsent (overlay.get? "ttlSec") = true
  ramp : objectOrAbsent (overlay.get? "ramp") = true
  shadow : objectOrAbsent (overlay.get? "shadow") = true
  mismatchLogging : objectOrAbsent ((overlay.get? "shadow").bind (·.get? "mismatchLogging")) = true

/-- An overlay is accepted by its shape and by the leaves that are checked after the merge. -/
theorem accepted_iff (policy : StaticPolicy) (overlay : Json) :
    Accepted overlay ↔ Shaped overlay ∧
      Settled (fun name => (writtenLeaf overlay name).or (withDefaults (staticLeaf policy) name)) := by
  rw [settled_merged_iff]
  constructor
  · intro h
    exact ⟨⟨h.shape, h.renamed, h.ttlSec, h.ramp, h.shadow, h.mismatchLogging⟩, h.requestLocal,
      h.coalesce, h.remoteReadTimeoutMs⟩
  · intro h
    obtain ⟨⟨shape, renamed, ttlSec, ramp, shadow, mismatchLogging⟩, requestLocal, coalesce, timeout⟩ := h
    exact ⟨shape, renamed, ttlSec, ramp, shadow, mismatchLogging, requestLocal, coalesce, timeout⟩

/-! ### Ports -/

/-- What is asked of a port: what it holds for the static policy and after a merge, which overlays
it merges, and what it resolves the held leaves to. -/
structure MemberPort {ε H R : Type} (policy : StaticPolicy) (key : Text) (instanceTimeoutMs : ℕ)
    (leaf : H → PolicyLeaf → Option Json) (malformed : H → Bool) (base : H)
    (overlaid : Members → H) (merge : Json → Except ε H) (resolve : H → Except ε R)
    (result : R → Resolved) : Prop where
  base_leaf : leaf base = withDefaults (staticLeaf policy)
  base_malformed : malformed base = false
  overlaid_leaf : ∀ members name, leaf (overlaid members) name =
    (writtenLeaf (.object members) name).or (leaf base name)
  overlaid_malformed : ∀ members, malformed (overlaid members) = malformedOverlay (.object members)
  merge_eq_ok : ∀ {reply held}, merge reply = .ok held ↔
    Shaped reply ∧ overlaid (reply.asObject?.getD []) = held
  resolved : ∀ {held r}, resolve held = .ok r → Settled (leaf held) ∧
    result r = resolveLeaves (leaf held) (malformed held) key instanceTimeoutMs
  resolves : ∀ {held}, Settled (leaf held) → ∃ r, resolve held = .ok r

namespace MemberPort

variable {ε H R : Type} {policy : StaticPolicy} {key : Text} {instanceTimeoutMs : ℕ}
  {leaf : H → PolicyLeaf → Option Json} {malformed : H → Bool} {base : H} {overlaid : Members → H}
  {merge : Json → Except ε H} {resolve : H → Except ε R} {result : R → Resolved}
  (port : MemberPort policy key instanceTimeoutMs leaf malformed base overlaid merge resolve result)

include port

theorem resolve_base : (resolve base).toOption.map result =
    some (resolveLeaves (staticLeaf policy) false key instanceTimeoutMs) := by
  have hsettled : Settled (leaf base) := by
    rw [port.base_leaf]
    exact (settled_merged_iff policy fun _ => none).mpr ⟨rfl, rfl, rfl⟩
  obtain ⟨resolved, hresolved⟩ := port.resolves hsettled
  have hresult := (port.resolved hresolved).2
  rw [port.base_leaf, port.base_malformed] at hresult
  rw [hresolved]
  exact congrArg some (hresult.trans
    (resolveLeaves_withDefaults (fun _ => none) (staticLeaf policy) false key instanceTimeoutMs))

theorem resolve_merge (reply : Json) : (merge reply >>= resolve).toOption.map result =
    if Accepted reply then some (resolveLeaves (mergedLeaf policy reply) (malformedOverlay reply) key
      instanceTimeoutMs) else none := by
  have hleaves : Shaped reply → leaf (overlaid (reply.asObject?.getD [])) =
      (fun name => (writtenLeaf reply name).or (withDefaults (staticLeaf policy) name)) ∧
        malformed (overlaid (reply.asObject?.getD [])) = malformedOverlay reply := by
    intro hshaped
    have hshape := hshaped.shape
    cases reply with
    | object members =>
      refine ⟨funext fun name => ?_, port.overlaid_malformed members⟩
      rw [← port.base_leaf]
      exact port.overlaid_leaf members name
    | _ => cases hshape
  apply toOption_map_eq_ite
  · intro resolved hresolved
    obtain ⟨held, hheld, hresolved⟩ := bind_eq_ok.mp hresolved
    obtain ⟨hshaped, rfl⟩ := port.merge_eq_ok.mp hheld
    obtain ⟨hsettled, hresult⟩ := port.resolved hresolved
    rw [(hleaves hshaped).1] at hsettled hresult
    rw [(hleaves hshaped).2] at hresult
    exact ⟨(accepted_iff policy reply).mpr ⟨hshaped, hsettled⟩,
      hresult.trans (resolveLeaves_withDefaults _ _ _ _ _)⟩
  · intro haccepted
    obtain ⟨hshaped, hsettled⟩ := (accepted_iff policy reply).mp haccepted
    rw [← (hleaves hshaped).1] at hsettled
    obtain ⟨resolved, hresolved⟩ := port.resolves hsettled
    exact ⟨resolved, bind_eq_ok.mpr ⟨_, port.merge_eq_ok.mpr ⟨hshaped, rfl⟩, hresolved⟩⟩

/-- A port that overlays what it is replied resolves as the portable definition does. -/
theorem resolves_overlay {overlay : Option Json} {apply : Option Json → Except ε H}
    (hnone : apply none = .ok base) (hnull : apply (some .null) = .ok base)
    (hsome : ∀ reply, reply ≠ .null → apply (some reply) = merge reply) :
    (apply overlay >>= resolve).toOption.map result =
      resolvePolicy policy overlay key instanceTimeoutMs := by
  cases overlay with
  | none =>
    rw [hnone]
    exact port.resolve_base
  | some reply =>
    by_cases h : reply = .null
    · rw [h, hnull]
      exact port.resolve_base
    · rw [hsome reply h, resolvePolicy_some policy h]
      exact port.resolve_merge reply

end MemberPort

/-- A group that is written into a shadow object unless it is empty. -/
def withGroup (output : Members) (value diff : Option Json) (name : String) : Members :=
  let group := Members.insert? (Members.insert? [] "value" value) "diff" diff
  if group.isEmpty then output else output.insert name (.object group)

theorem get?_withGroup_of_ne (output : Members) (value diff : Option Json) {name other : String}
    (h : name ≠ other) :
    (withGroup output value diff name).get? other = output.get? other := by
  rw [withGroup]
  split
  · rfl
  · exact Members.get?_insert_of_ne output h _

theorem get?_withGroup {output : Members} {name : String} (h : output.get? name = none)
    (value diff : Option Json) :
    ((withGroup output value diff name).get? name).bind (·.get? "value") = value ∧
      ((withGroup output value diff name).get? name).bind (·.get? "diff") = diff := by
  have hinserted : ∀ value diff : Option Json, let output := output.insert name (.object
      (Members.insert? (Members.insert? [] "value" value) "diff" diff))
      (output.get? name).bind (·.get? "value") = value ∧
        (output.get? name).bind (·.get? "diff") = diff := by
    intro value diff output
    rw [Members.get?_insert_self]
    exact get?_group value diff
  cases value with
  | some value =>
    cases diff with
    | none => exact hinserted (some value) none
    | some diff => exact hinserted (some value) (some diff)
  | none =>
    cases diff with
    | some diff => exact hinserted none (some diff)
    | none =>
      change (output.get? name).bind _ = _ ∧ (output.get? name).bind _ = _
      rw [h]
      exact ⟨rfl, rfl⟩

/-- The ramp and the shorthand of a merged shadow group, before its mismatch leaves. -/
def shadowHead (inherited incoming : Members) (log : String) : Members :=
  let output := Members.insert? [] "ramp" ((incoming.get? "ramp").or (inherited.get? "ramp"))
  if malformedShorthand (incoming.get? log) then output.insert? log (incoming.get? log) else output

/-- What a merged shadow group holds. -/
theorem get?_mergedGroup (inherited incoming : Members) (value diff : Option Json)
    {log group : String} (hnames : ["ramp", log, group].Nodup) :
    let merged := withGroup (shadowHead inherited incoming log) value diff group
    merged.get? "ramp" = (incoming.get? "ramp").or (inherited.get? "ramp") ∧
      merged.get? log =
        (if malformedShorthand (incoming.get? log) then incoming.get? log else none) ∧
      (merged.get? group).bind (·.get? "value") = value ∧
      (merged.get? group).bind (·.get? "diff") = diff ∧
      objectOrAbsent (merged.get? group) = true ∧
      ∀ other ∉ ["ramp", log, group], merged.get? other = none := by
  obtain ⟨⟨hlog, hramp⟩, hgroup⟩ : (¬ "ramp" = log ∧ ¬ "ramp" = group) ∧ ¬ log = group := by
    simpa using hnames
  have hhead : ∀ other, (shadowHead inherited incoming log).get? other =
      if "ramp" = other then (incoming.get? "ramp").or (inherited.get? "ramp")
      else if log = other ∧ malformedShorthand (incoming.get? log) = true then incoming.get? log
      else none := by
    intro other
    rw [shadowHead]
    cases hmalformed : malformedShorthand (incoming.get? log) with
    | false => simp [Members.get?_insert?]
    | true =>
      by_cases hother : log = other
      · subst hother
        simp [Members.get?_insert?, hlog]
      · simp [Members.get?_insert?, hother]
  intro merged
  have hnone : (shadowHead inherited incoming log).get? group = none := by
    simp [hhead, hramp, hgroup]
  obtain ⟨hvalue, hdiff⟩ := get?_withGroup hnone value diff
  have hne : ∀ {other}, group ≠ other → merged.get? other = _ := get?_withGroup_of_ne _ value diff
  refine ⟨?_, ?_, hvalue, hdiff, ?_, ?_⟩
  · rw [hne (Ne.symm hramp), hhead, if_pos rfl]
  · rw [hne (Ne.symm hgroup), hhead, if_neg hlog]
    simp
  · simp only [merged, withGroup]
    split
    · rw [hnone]
      rfl
    · rw [Members.get?_insert_self]
      rfl
  · intro other hother
    simp only [List.mem_cons, List.not_mem_nil, or_false, not_or] at hother
    rw [hne (Ne.symm hother.2.2), hhead, if_neg (Ne.symm hother.1), if_neg]
    exact fun h => hother.2.1 h.1.symm

theorem groupValue_merged (shorthand value inherited : Option Json) :
    groupValue (if malformedShorthand shorthand then shorthand else none)
        ((groupValue shorthand value).or inherited) =
      (groupValue shorthand value).or inherited := by
  cases hmalformed : malformedShorthand shorthand with
  | false => exact Option.or_none
  | true =>
    -- a malformed shorthand has written the leaf already
    cases value with
    | some value => rfl
    | none =>
      cases shorthand with
      | none => cases hmalformed
      | some leaf =>
        cases leaf with
        | bool flag => cases hmalformed
        | _ => rfl

theorem groupDiff_merged (shorthand diff inherited : Option Json) :
    groupDiff (if malformedShorthand shorthand then shorthand else none)
        ((groupDiff shorthand diff).or inherited) =
      (groupDiff shorthand diff).or inherited := by
  cases hmalformed : malformedShorthand shorthand with
  | false => exact Option.or_none
  | true =>
    cases diff with
    | some diff => rfl
    | none =>
      cases shorthand with
      | none => cases hmalformed
      | some leaf =>
        cases leaf with
        | bool flag => cases hmalformed
        | _ => rfl

theorem malformedShorthand_kept (shorthand : Option Json) :
    malformedShorthand (if malformedShorthand shorthand then shorthand else none) =
      malformedShorthand shorthand := by
  cases hmalformed : malformedShorthand shorthand with
  | false => rfl
  | true => exact hmalformed

theorem malformedShorthand_bool (flag : Option Bool) :
    malformedShorthand (flag.map Json.bool) = false := by
  cases flag <;> rfl

end DialCache.PolicyLeaves
