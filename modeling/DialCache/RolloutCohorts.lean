import DialCache.Binary64Rationals
import DialCache.KeyAgreement
import DialCache.ShadowValidation

/-!
# Rollout cohorts

A key belongs to the cohort of a discriminator by the FNV-1a hash of its UTF-16 code units,
scaled to a percentage. The four ports compute the hash with signed 32-bit integers, with
wrapping unsigned ones and with masked big integers.
-/

namespace DialCache.RolloutCohorts

open UnicodeText JsValues CacheKeys RuntimeConfig PortableKeys KeyPorts KeyAgreement
open Binary64Rationals ShadowValidation
open KeyAgreement.Python (codePoints)

/-- One step of the hash. -/
def fnvStep (hash : UInt32) (unit : UInt16) : UInt32 := (hash ^^^ unit.toUInt32) * 0x01000193

/-- The 32-bit FNV-1a hash of code units. -/
def fnv (us : List UInt16) : UInt32 := us.foldl fnvStep 0x811c9dc5

variable (logical discriminator : Text)

/-- The code units that a port hashes for a discriminator. -/
def cohortUnits : List UInt16 := units (logical ++ ':' :: discriminator)

/-- A hash is below a ramp, without any rounding. -/
def Admitted (hash : UInt32) (ramp : ℚ) : Prop := (hash.toNat : ℚ) * 100 < ramp * 2 ^ 32

/-- `hash / 4294967296 * 100` in binary64 arithmetic. -/
def scaled (hash : ℕ) : ℚ := binary64 (binary64 (hash / 4294967296) * 100)

/-! ### Hash loops -/

namespace TypeScript

/-- `a ^ b` on the 32-bit integers of two numbers. -/
def bitXor (a b : ℤ) : ℤ := (BitVec.ofInt 32 a ^^^ BitVec.ofInt 32 b).toInt

/-- `Math.imul`. -/
def imul (a b : ℤ) : ℤ := (BitVec.ofInt 32 a * BitVec.ofInt 32 b).toInt

/-- `n >>> 0`. -/
def toUint32 (n : ℤ) : ℕ := (BitVec.ofInt 32 n).toNat

def hashLoop (value : List UInt16) : ℤ :=
  value.foldl (fun hash unit => imul (bitXor hash unit.toNat) 0x01000193) 0x811c9dc5

def hash (value : List UInt16) : ℕ := toUint32 (hashLoop value)

/-- `stablePercent` in the arithmetic of the source. -/
def stablePercent (value : List UInt16) : ℚ := scaled (hash value)

end TypeScript

namespace Go

open KeyPorts.Go

def hash (us : List UInt16) : UInt32 :=
  us.foldl (fun hash unit => (hash ^^^ unit.toUInt32) * 0x01000193) 0x811c9dc5

def cohortHash (logical discriminator : GoString) : UInt32 :=
  hash (units (decodeUtf8 (logical ++ literal ":" ++ discriminator)))

def cohort (logical discriminator : GoString) : ℚ := scaled (cohortHash logical discriminator).toNat

/-- The admission of a layer and of a shadow validation. -/
def admits (ramp : ℚ) (logical discriminator : GoString) : Bool :=
  100 ≤ ramp || (0 < ramp && cohort logical discriminator < ramp)

end Go

namespace Rust

def hash (us : List UInt16) : UInt32 :=
  us.foldl (fun hash unit => (hash ^^^ unit.toUInt32) * 0x01000193) 0x811c9dc5

def cohortHash (logicalKey discriminator : Text) : UInt32 :=
  hash (units logicalKey ++ units [':'] ++ units discriminator)

def cohort (logicalKey discriminator : Text) : ℚ := scaled (cohortHash logicalKey discriminator).toNat

def admits (ramp : ℚ) (logicalKey discriminator : Text) : Bool :=
  100 ≤ ramp || (0 < ramp && cohort logicalKey discriminator < ramp)

end Rust

namespace Python

open KeyAgreement.Python

def hashStep (hashed unit : ℕ) : ℕ := ((hashed ^^^ unit) * 0x01000193) &&& 0xFFFFFFFF

/-- The units that the loop over little-endian pairs of bytes reads. -/
def bytePairs : List ℕ → List ℕ
  | low :: high :: rest => (low ||| high <<< 8) :: bytePairs rest
  | _ => []

def littleEndian (us : List UInt16) : List ℕ := us.flatMap fun u => [u.toNat % 256, u.toNat / 256]

def hash (us : List UInt16) : ℕ := (bytePairs (littleEndian us)).foldl hashStep 0x811C9DC5

def rampHash (key discriminator : PyString) : ℕ := hash (utf16Units (key ++ literal ":" ++ discriminator))

def rampSample (key discriminator : PyString) : ℚ := scaled (rampHash key discriminator)

/-- The admission of a layer. -/
def admits (ramp : ℚ) (key discriminator : PyString) : Bool :=
  100 ≤ ramp || (0 < ramp && rampSample key discriminator < ramp)

/-- The admission of a shadow validation. -/
def admitsShadow (ramp : ℚ) (key : PyString) : Bool :=
  !(ramp < 100 && ramp ≤ rampSample key (literal "shadow"))

end Python

variable (us : List UInt16)

theorem TypeScript.hash_eq : TypeScript.hash us = (fnv us).toNat := by
  have hloop : ∀ (us : List UInt16) (n : ℤ) (h : UInt32), BitVec.ofInt 32 n = h.toBitVec →
      BitVec.ofInt 32 (us.foldl (fun hash unit =>
        TypeScript.imul (TypeScript.bitXor hash unit.toNat) 0x01000193) n) =
        (us.foldl fnvStep h).toBitVec := by
    intro us
    induction us with
    | nil =>
      intro n h heq
      exact heq
    | cons u us ih =>
      intro n h heq
      apply ih
      have hunit : BitVec.ofInt 32 (u.toNat : ℤ) = u.toUInt32.toBitVec := by
        apply BitVec.eq_of_toNat_eq
        simp
      change BitVec.ofInt 32 (TypeScript.imul (TypeScript.bitXor n u.toNat) 0x01000193) =
        (fnvStep h u).toBitVec
      rw [TypeScript.imul, TypeScript.bitXor, BitVec.ofInt_toInt, BitVec.ofInt_toInt, heq, hunit]
      rfl
  have hstart := hloop us 0x811c9dc5 0x811c9dc5 (by decide)
  rw [TypeScript.hash, TypeScript.toUint32, TypeScript.hashLoop, hstart]
  rfl

theorem Python.bytePairs_littleEndian :
    Python.bytePairs (Python.littleEndian us) = us.map UInt16.toNat := by
  induction us with
  | nil => rfl
  | cons u us ih =>
    have hbytes : u.toNat % 256 ||| (u.toNat / 256) <<< 8 = u.toNat := by
      rw [Nat.or_comm, ← Nat.shiftLeft_add_eq_or_of_lt (by omega), Nat.shiftLeft_eq]
      omega
    have hcons : Python.littleEndian (u :: us) =
        (u.toNat % 256) :: (u.toNat / 256) :: Python.littleEndian us := rfl
    rw [hcons, Python.bytePairs, hbytes, ih, List.map_cons]

theorem Python.hashStep_eq (h : UInt32) (u : UInt16) :
    Python.hashStep h.toNat u.toNat = (fnvStep h u).toNat := by
  rw [Python.hashStep, show (0xFFFFFFFF : ℕ) = 2 ^ 32 - 1 from rfl, Nat.and_two_pow_sub_one_eq_mod]
  simp [fnvStep, UInt32.toNat_mul, UInt32.toNat_xor]

theorem Python.hash_eq : Python.hash us = (fnv us).toNat := by
  have hloop : ∀ (us : List UInt16) (h : UInt32),
      (us.map UInt16.toNat).foldl Python.hashStep h.toNat = (us.foldl fnvStep h).toNat := by
    intro us
    induction us with
    | nil =>
      intro h
      rfl
    | cons u us ih =>
      intro h
      rw [List.map_cons, List.foldl_cons, List.foldl_cons, Python.hashStep_eq, ih]
  rw [Python.hash, Python.bytePairs_littleEndian]
  exact hloop us 0x811c9dc5

/-! ### Samples and admission -/

variable (hash : UInt32)

theorem toNat_hash_lt : hash.toNat < 2 ^ 32 := hash.toNat_lt

/-- Neither the division nor the product of a sample rounds. -/
theorem scaled_eq : scaled hash.toNat = hash.toNat * 100 / 2 ^ 32 := by
  have hlt := toNat_hash_lt hash
  have hpow : (2 : ℚ) ^ (-32 : ℤ) = 1 / 4294967296 := by norm_num
  have hquotient : ((hash.toNat : ℕ) : ℚ) / 4294967296 = ((hash.toNat : ℤ) : ℚ) * 2 ^ (-32 : ℤ) := by
    rw [hpow]
    push_cast
    ring
  have hproduct : ((hash.toNat : ℤ) : ℚ) * 2 ^ (-32 : ℤ) * 100 =
      ((hash.toNat * 100 : ℤ) : ℚ) * 2 ^ (-32 : ℤ) := by
    push_cast
    ring
  have hfirst : |(hash.toNat : ℤ)| < 2 ^ 53 := by
    rw [abs_of_nonneg (by omega)]
    omega
  have hsecond : |(hash.toNat * 100 : ℤ)| < 2 ^ 53 := by
    rw [abs_of_nonneg (by omega)]
    omega
  rw [scaled, hquotient, binary64_eq_self _ hfirst, hproduct, binary64_eq_self _ hsecond, hpow]
  push_cast
  ring

theorem scaled_lt_iff (ramp : ℚ) : scaled hash.toNat < ramp ↔ Admitted hash ramp := by
  rw [scaled_eq, Admitted, div_lt_iff₀ (by norm_num)]

variable {ramp : ℚ}

theorem admitted_of_le {hash : UInt32} {ramp' : ℚ} (hle : ramp ≤ ramp') (h : Admitted hash ramp) :
    Admitted hash ramp' := by
  unfold Admitted at h ⊢
  linarith

theorem not_admitted_zero : ¬ Admitted hash 0 := by
  have hnonneg : (0 : ℚ) ≤ hash.toNat := Nat.cast_nonneg _
  unfold Admitted
  linarith

theorem admitted_hundred : Admitted hash 100 := by
  have hlt : ((hash.toNat : ℕ) : ℚ) < 2 ^ 32 := by exact_mod_cast toNat_hash_lt hash
  unfold Admitted
  linarith

/-- The admission that layers share: a full ramp admits without a sample and an empty one
does not look at it. -/
theorem layer_admits_iff (h0 : 0 ≤ ramp) :
    (decide (100 ≤ ramp) || (decide (0 < ramp) && decide (scaled hash.toNat < ramp))) = true ↔
      Admitted hash ramp := by
  simp only [Bool.or_eq_true, Bool.and_eq_true, decide_eq_true_eq, scaled_lt_iff]
  constructor
  · intro h
    rcases h with h | h
    · exact admitted_of_le h (admitted_hundred hash)
    · exact h.2
  · intro h
    right
    constructor
    · rcases lt_or_eq_of_le h0 with hpos | hzero
      · exact hpos
      · rw [← hzero] at h
        exact absurd h (not_admitted_zero hash)
    · exact h

theorem shadow_admits_iff (ramp : ℚ) :
    (!(decide (ramp < 100) && decide (ramp ≤ scaled hash.toNat))) = true ↔ Admitted hash ramp := by
  simp only [Bool.not_eq_true', Bool.and_eq_false_iff, decide_eq_false_iff_not, not_le, not_lt,
    scaled_lt_iff]
  constructor
  · intro h
    rcases h with h | h
    · exact admitted_of_le h (admitted_hundred hash)
    · exact h
  · intro h
    exact Or.inr h

theorem Go.hash_eq : Go.hash us = fnv us := rfl

theorem TypeScript.stablePercent_eq (value : List UInt16) :
    TypeScript.stablePercent value = RuntimeConfig.stablePercent value := by
  rw [TypeScript.stablePercent, TypeScript.hash_eq, scaled_eq]
  have hfold : RuntimeConfig.stablePercent value = (fnv value).toNat * 100 / 4294967296 := rfl
  rw [hfold]
  norm_num

theorem stablePercent_lt_iff (value : List UInt16) (ramp : ℚ) :
    RuntimeConfig.stablePercent value < ramp ↔ Admitted (fnv value) ramp := by
  rw [← TypeScript.stablePercent_eq, TypeScript.stablePercent, TypeScript.hash_eq, scaled_lt_iff]

section Layers

variable {config : DialCacheKeyConfig} {layer : CacheLayer} {ttlSec : ℕ}
  (httl : (config.ttlSec.leaf layer).natural? = some ttlSec)
  (hsupported : 0 < ttlSec ∧ ttlSec ≤ maxCacheTtlSec)
  (hramp : configuredRamp? (config.ramp.leaf layer) = some ramp)

include httl hsupported hramp

/-- A layer with a valid policy is enabled for its admitted keys and ramped down for the others. -/
theorem TypeScript.resolveLayerConfigResult_cases (urn : JsString) :
    (Admitted (fnv (urn ++ text ":" ++ layerName layer)) ramp ∧
        resolveLayerConfigResult (some config) urn layer = .enabled ⟨ttlSec, ramp, hsupported⟩) ∨
      (¬ Admitted (fnv (urn ++ text ":" ++ layerName layer)) ramp ∧
        resolveLayerConfigResult (some config) urn layer = .rampedDown ⟨ttlSec, ramp, hsupported⟩) := by
  have hsample := stablePercent_lt_iff (urn ++ text ":" ++ layerName layer) ramp
  rw [resolveLayerConfigResult_supported httl hsupported, hramp, deterministicRampSample]
  dsimp only
  split
  · rename_i hzero
    exact .inr ⟨fun h => not_admitted_zero _ (admitted_of_le hzero h), rfl⟩
  split
  · rename_i hfull
    exact .inl ⟨admitted_of_le hfull (admitted_hundred _), rfl⟩
  split
  · rename_i hbelow
    exact .inl ⟨hsample.mp hbelow, rfl⟩
  · rename_i hrefused
    exact .inr ⟨mt hsample.mpr hrefused, rfl⟩

/-- A layer with a valid policy is enabled exactly for its admitted keys. -/
theorem TypeScript.enabled_iff {urn : JsString} :
    (∃ resolved, resolveLayerConfigResult (some config) urn layer = .enabled resolved) ↔
      Admitted (fnv (urn ++ text ":" ++ layerName layer)) ramp := by
  rcases TypeScript.resolveLayerConfigResult_cases httl hsupported hramp urn with
    ⟨hadmitted, h⟩ | ⟨hrefused, h⟩
  · exact iff_of_true ⟨_, h⟩ hadmitted
  · rw [h]
    exact iff_of_false (fun ⟨_, hne⟩ => by cases hne) hrefused

end Layers

theorem TypeScript.shadowSampled_iff (urn : JsString) (percentage : ℚ) :
    shadowSampled urn percentage = true ↔ Admitted (fnv (urn ++ text ":shadow")) percentage := by
  have hsample : deterministicShadowRampSample urn = scaled (fnv (urn ++ text ":shadow")).toNat := by
    rw [deterministicShadowRampSample, ← TypeScript.stablePercent_eq, TypeScript.stablePercent,
      TypeScript.hash_eq]
  rw [← shadow_admits_iff, ← hsample]
  rfl

theorem Go.cohortHash_write : Go.cohortHash (encodeUtf8 logical) (encodeUtf8 discriminator) =
      fnv (cohortUnits logical discriminator) := by
  have hbytes : encodeUtf8 logical ++ KeyPorts.Go.literal ":" ++ encodeUtf8 discriminator =
      encodeUtf8 (logical ++ ':' :: discriminator) := by
    have hcolon : KeyPorts.Go.literal ":" = encodeUtf8 [':'] := by decide +kernel
    rw [hcolon]
    simp [encodeUtf8]
  rw [Go.cohortHash, hbytes, decodeUtf8_encodeUtf8, Go.hash_eq, cohortUnits]

theorem Rust.cohortHash_eq :
    Rust.cohortHash logical discriminator = fnv (cohortUnits logical discriminator) := by
  have hunits : units logical ++ units [':'] ++ units discriminator =
      cohortUnits logical discriminator := by
    simp [cohortUnits, units]
  rw [Rust.cohortHash, hunits]
  rfl

theorem Python.rampHash_write :
    Python.rampHash (codePoints logical) (codePoints discriminator) =
      (fnv (cohortUnits logical discriminator)).toNat := by
  have hpoints : codePoints logical ++ KeyAgreement.Python.literal ":" ++
      codePoints discriminator =
      codePoints (logical ++ ':' :: discriminator) := by
    have hcolon : KeyAgreement.Python.literal ":" = [':'.toNat] := by decide +kernel
    simp [codePoints, hcolon]
  rw [Python.rampHash, hpoints, KeyAgreement.Python.utf16Units_codePoints, Python.hash_eq,
    cohortUnits]

/-! ### Agreement -/

/-- The four ports on one request, each with the arguments in some enumeration order. -/
structure KeysAgree (request : KeyRequest Text) (order : List (Text × ArgValue Text)) : Prop where
  ordered : (normalize request.args).Pairwise fun a b => unitKey a.1 < unitKey b.1
  typescript_args : KeyAgreement.TypeScript.normalizeArgs
      (order.map fun arg => (units arg.1, arg.2.map units)) =
    (normalize request.args).map fun pair => (units pair.1, units pair.2)
  go_args : KeyAgreement.Go.normalizeArgs
      (order.map fun arg => (encodeUtf8 arg.1, arg.2.map encodeUtf8)) =
    .ok ((normalize request.args).map fun pair => (encodeUtf8 pair.1, encodeUtf8 pair.2))
  rust_args : KeyAgreement.Rust.normalizeArgs order = normalize request.args
  python_args : KeyAgreement.Python.normalizeArgs (order.map fun arg =>
      (codePoints arg.1, arg.2.map codePoints)) =
    (normalize request.args).map fun pair =>
      (codePoints pair.1, codePoints pair.2)
  typescript : (KeyPorts.TypeScript.keys
      ((request.identity (normalize request.args)).map units)).toOption =
    (PortableKeys.keys (request.identity (normalize request.args))).map (KeyNames.map units)
  go : (KeyPorts.Go.keys ((request.identity (normalize request.args)).map encodeUtf8)).toOption =
    (PortableKeys.keys (request.identity (normalize request.args))).map (KeyNames.map encodeUtf8)
  rust : (KeyPorts.Rust.keys (request.identity (normalize request.args))).toOption =
    PortableKeys.keys (request.identity (normalize request.args))
  python : (KeyAgreement.Python.keys
      ((request.identity (normalize request.args)).map codePoints)).toOption =
    (PortableKeys.keys (request.identity (normalize request.args))).map
      (KeyNames.map codePoints)

/-- The four ports on the cohort of one logical key. -/
structure CohortsAgree (logical discriminator : Text) (hash : UInt32) : Prop where
  typescript_hash : TypeScript.hash (units logical ++ text ":" ++ units discriminator) = hash.toNat
  go_hash : Go.cohortHash (encodeUtf8 logical) (encodeUtf8 discriminator) = hash
  rust_hash : Rust.cohortHash logical discriminator = hash
  python_hash : Python.rampHash (codePoints logical)
    (codePoints discriminator) = hash.toNat
  exact_sample : scaled hash.toNat = hash.toNat * 100 / 2 ^ 32 ∧ hash.toNat * 100 < 2 ^ 39
  typescript_layer : ∀ (config : DialCacheKeyConfig) (layer : CacheLayer) (ttlSec : ℕ) (ramp : ℚ),
    layerName layer = units discriminator →
    (config.ttlSec.leaf layer).natural? = some ttlSec → 0 < ttlSec ∧ ttlSec ≤ maxCacheTtlSec →
    configuredRamp? (config.ramp.leaf layer) = some ramp →
    ((∃ resolved, resolveLayerConfigResult (some config) (units logical) layer = .enabled resolved) ↔
      Admitted hash ramp)
  typescript_shadow : text "shadow" = units discriminator →
    ∀ ramp, shadowSampled (units logical) ramp = true ↔ Admitted hash ramp
  go : ∀ ramp, 0 ≤ ramp →
    (Go.admits ramp (encodeUtf8 logical) (encodeUtf8 discriminator) = true ↔ Admitted hash ramp)
  rust : ∀ ramp, 0 ≤ ramp → (Rust.admits ramp logical discriminator = true ↔ Admitted hash ramp)
  python : ∀ ramp, 0 ≤ ramp → (Python.admits ramp (codePoints logical)
    (codePoints discriminator) = true ↔ Admitted hash ramp)
  python_shadow : text "shadow" = units discriminator → ∀ ramp,
    (Python.admitsShadow ramp (codePoints logical) = true ↔ Admitted hash ramp)

theorem typescriptUnits_eq :
    units logical ++ text ":" ++ units discriminator = cohortUnits logical discriminator := by
  have hcolon : text ":" = unitsOf ':' := by decide +kernel
  simp [cohortUnits, units, hcolon]

theorem keysAgree {request : KeyRequest Text} (hnames : (request.args.map Prod.fst).Nodup)
    {order : List (Text × ArgValue Text)} (horder : order.Perm request.args) :
    KeysAgree request order where
  ordered := strictly_normalize hnames
  typescript_args := KeyAgreement.TypeScript.normalizeArgs_write hnames horder
  go_args := KeyAgreement.Go.normalizeArgs_write hnames horder
  rust_args := KeyAgreement.Rust.normalizeArgs_eq hnames horder
  python_args := KeyAgreement.Python.normalizeArgs_write hnames horder
  typescript := by
    rw [KeyPorts.TypeScript.toOption_keys]
    exact utf16.keys_write _
  go := by
    rw [KeyPorts.Go.toOption_keys]
    exact utf8.keys_write _
  rust := KeyPorts.Rust.toOption_keys _
  python := KeyAgreement.Python.toOption_keys _

theorem cohortsAgree :
    CohortsAgree logical discriminator (fnv (cohortUnits logical discriminator)) where
  typescript_hash := by rw [TypeScript.hash_eq, typescriptUnits_eq]
  go_hash := Go.cohortHash_write logical discriminator
  rust_hash := Rust.cohortHash_eq logical discriminator
  python_hash := Python.rampHash_write logical discriminator
  exact_sample := by
    have hlt := toNat_hash_lt (fnv (cohortUnits logical discriminator))
    exact ⟨scaled_eq _, by omega⟩
  typescript_layer := by
    intro config layer ttlSec ramp hlayer httl hsupported hramp
    rw [TypeScript.enabled_iff httl hsupported hramp, hlayer, typescriptUnits_eq]
  typescript_shadow := by
    intro hshadow ramp
    have hunits : units logical ++ text ":shadow" = cohortUnits logical discriminator := by
      rw [← typescriptUnits_eq, ← hshadow, List.append_assoc]
      congr 1
    rw [TypeScript.shadowSampled_iff, hunits]
  go := by
    intro ramp h0
    rw [Go.admits, Go.cohort, Go.cohortHash_write]
    exact layer_admits_iff _ h0
  rust := by
    intro ramp h0
    rw [Rust.admits, Rust.cohort, Rust.cohortHash_eq]
    exact layer_admits_iff _ h0
  python := by
    intro ramp h0
    rw [Python.admits, Python.rampSample, Python.rampHash_write]
    exact layer_admits_iff _ h0
  python_shadow := by
    intro hshadow ramp
    have hpoints : KeyAgreement.Python.literal "shadow" =
        codePoints discriminator := by
      have hscalars := congrArg scalars hshadow
      rw [scalars_units, show scalars (text "shadow") = "shadow".toList by decide +kernel] at hscalars
      rw [← hscalars]
      rfl
    rw [Python.admitsShadow, hpoints, Python.rampSample, Python.rampHash_write]
    exact shadow_admits_iff _ ramp

/-- The ports share one keyspace and one rollout: names, argument order, hashes, samples and
admission agree on every request, and a larger ramp admits more. -/
theorem port_agreement (request : KeyRequest Text) (hnames : (request.args.map Prod.fst).Nodup)
    (order : List (Text × ArgValue Text)) (horder : order.Perm request.args) :
    KeysAgree request order ∧
    (∀ us, TypeScript.hash us = (fnv us).toNat ∧ Go.hash us = fnv us ∧ Rust.hash us = fnv us ∧
      Python.hash us = (fnv us).toNat) ∧
    (∀ logical discriminator,
      CohortsAgree logical discriminator (fnv (cohortUnits logical discriminator))) ∧
    ∀ hash, ¬ Admitted hash 0 ∧ Admitted hash 100 ∧
      ∀ ramp ramp', ramp ≤ ramp' → Admitted hash ramp → Admitted hash ramp' := by
  constructor
  · exact keysAgree hnames horder
  constructor
  · intro us
    exact ⟨TypeScript.hash_eq us, rfl, rfl, Python.hash_eq us⟩
  constructor
  · exact cohortsAgree
  · intro hash
    exact ⟨not_admitted_zero hash, admitted_hundred hash, fun _ _ => admitted_of_le⟩

/-- A name outside the basic plane and one in its private use area, in the order of their
code points. -/
def privateUseRequest : KeyRequest Text where
  cacheNamespace := "urn".toList
  keyType := "user".toList
  id := "42".toList
  args := [([Char.ofNat 0xE000], .text "a".toList), ([Char.ofNat 0x1F600], .null)]
  useCase := "profile".toList
  tracked := true

/-- The supplementary name comes first, by its surrogates. -/
theorem port_agreement_private_use :
    KeyAgreement.Rust.normalizeArgs privateUseRequest.args.reverse =
      [([Char.ofNat 0x1F600], "null".toList), ([Char.ofNat 0xE000], "a".toList)] := by
  have hagree := port_agreement privateUseRequest (by decide) privateUseRequest.args.reverse
    (List.reverse_perm _)
  rw [hagree.1.rust_args]
  symm
  apply eq_normalize (by decide)
  · exact List.Perm.swap _ _ _
  · decide +kernel

end DialCache.RolloutCohorts
