import Mathlib.Data.List.Sort
import DialCache.RuntimeConfig
import DialCache.UnicodeText

/-!
# Cache keys

The identity of a cached value and the names derived from it: the logical key that the
process-wide tables use, the Redis value key and the watermark key of the entity. Building
a key fails on a component that has no URI encoding and on braces that would break a
cluster hash tag.
-/

namespace DialCache.CacheKeys

open UnicodeText JsValues RuntimeConfig

abbrev JsString := List UInt16

inductive KeyError where
  | uriError
  | typeError (message : String)
  | error (message : String)
deriving DecidableEq

/-- What the key selector returns: an id and secondary dimensions, already as strings.
An argument with value `undefined` is `none`. -/
structure CacheKeySpec where
  id : JsString
  args : List (JsString × Option JsString)

/-- The bytes that `encodeURIComponent` leaves alone. -/
def isUnreserved (b : UInt8) : Bool :=
  let n := b.toNat
  (65 ≤ n && n ≤ 90) || (97 ≤ n && n ≤ 122) || (48 ≤ n && n ≤ 57) ||
    [45, 95, 46, 33, 126, 42, 39, 40, 41].contains n

def hexDigit (n : ℕ) : UInt16 := UInt16.ofNat (if n < 10 then 48 + n else 55 + n)

def percentEncode (b : UInt8) : JsString :=
  if isUnreserved b then [b.toUInt16] else [37, hexDigit (b.toNat / 16), hexDigit (b.toNat % 16)]

/-- `encodeURIComponent`. -/
def encodeComponent (value : JsString) : Except KeyError JsString :=
  if isWellFormed value then .ok ((encodeUtf8 (scalars value)).flatMap percentEncode)
  else .error .uriError

def joinUrnComponents (components : List JsString) : Except KeyError JsString := do
  let encoded ← components.mapM encodeComponent
  return List.intercalate (text ":") encoded

def hasBrace (value : JsString) : Bool := value.contains 123 || value.contains 125

def assertValidNamespace (cacheNamespace : JsString) : Except KeyError Unit :=
  if hasBrace cacheNamespace then
    .error (.typeError "DialCache namespace must not contain \"\x7b\" or \"\x7d\"")
  else .ok ()

def assertRedisHashTagComponent (name : String) (value : JsString) : Except KeyError Unit :=
  if hasBrace value then
    .error (.error ("Redis Cluster hash tag components must not contain braces: " ++ name))
  else .ok ()

variable (cacheNamespace keyType id : JsString)

def invalidationPrefix : Except KeyError JsString := do
  assertValidNamespace cacheNamespace
  assertRedisHashTagComponent "keyType" keyType
  assertRedisHashTagComponent "id" id
  joinUrnComponents [cacheNamespace, keyType, id]

def redisClusterHashTag (value : JsString) : Except KeyError JsString := do
  assertRedisHashTagComponent "value" value
  return 123 :: value ++ [125]

/-- The hash tag shared by the watermark of an entity and its tracked values. -/
def entityHashTag : Except KeyError JsString := do
  redisClusterHashTag (← invalidationPrefix cacheNamespace keyType id)

/-- A constructed key. A tracked one starts with the hash tag of its entity. -/
structure DialCacheKey where
  keyType : JsString
  id : JsString
  useCase : JsString
  cacheNamespace : JsString
  keyPrefix : JsString
  urn : JsString
  defaultConfig : Option DialCacheKeyConfig
  trackForInvalidation : Bool
  tracked_keyPrefix : trackForInvalidation = true →
    entityHashTag cacheNamespace keyType id = .ok keyPrefix

/-- The order of `compareCodePoints`: by UTF-16 code units. -/
def nameLe (left right : JsString × JsString) : Prop :=
  ¬ List.Lex (· < ·) (right.1.map UInt16.toNat) (left.1.map UInt16.toNat)

instance (left right : JsString × JsString) : Decidable (nameLe left right) :=
  inferInstanceAs (Decidable (¬ _))

def normalizeArgs (args : List (JsString × Option JsString)) : List (JsString × JsString) :=
  (args.filterMap fun arg => arg.2.map (arg.1, ·)).insertionSort nameLe

def encodeArg (arg : JsString × JsString) : Except KeyError JsString := do
  return (← encodeComponent arg.1) ++ text "=" ++ (← encodeComponent arg.2)

def encodeArgs (args : List (JsString × JsString)) : Except KeyError JsString :=
  if args.isEmpty then .ok []
  else do return text "?" ++ List.intercalate (text "&") (← args.mapM encodeArg)

/-- The options of an operation that go into its keys. -/
structure KeyOptions where
  keyType : JsString
  useCase : JsString
  defaultConfig : Option DialCacheKeyConfig
  trackForInvalidation : Bool

/-- The prefix of a key, with what construction has checked about it. -/
def checkedPrefix (tracked : Bool) : Except KeyError {keyPrefix : JsString //
      tracked = true → entityHashTag cacheNamespace keyType id = .ok keyPrefix} := do
  let rawPrefix ← joinUrnComponents [cacheNamespace, keyType, id]
  if h : tracked = true then
    match htag : entityHashTag cacheNamespace keyType id with
    | .ok tag => .ok ⟨tag, fun _ => htag⟩
    | .error e => .error e
  else .ok ⟨rawPrefix, fun htracked => absurd htracked h⟩

def buildKey (cacheNamespace : JsString) (options : KeyOptions) (spec : CacheKeySpec) :
    Except KeyError DialCacheKey := do
  assertValidNamespace cacheNamespace
  let ⟨keyPrefix, tracked⟩ ←
    checkedPrefix cacheNamespace options.keyType spec.id options.trackForInvalidation
  let args ← encodeArgs (normalizeArgs spec.args)
  let useCase ← encodeComponent options.useCase
  return {
    keyType := options.keyType
    id := spec.id
    useCase := options.useCase
    cacheNamespace
    keyPrefix
    urn := keyPrefix ++ args ++ text "#" ++ useCase
    defaultConfig := options.defaultConfig
    trackForInvalidation := options.trackForInvalidation
    tracked_keyPrefix := tracked }

def redisKey (key : DialCacheKey) : JsString := key.urn ++ text ":dialcache-frame-v1"

def redisWatermarkKey : Except KeyError JsString := do
  return (← entityHashTag cacheNamespace keyType id) ++ text "#watermark"

/-- The watermark key of a tracked key. -/
def redisWatermarkKeyFromKey (key : DialCacheKey) : JsString := key.keyPrefix ++ text "#watermark"

end DialCache.CacheKeys
