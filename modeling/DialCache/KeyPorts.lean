import DialCache.HostKeys

/-!
# The key builders of the four ports

TypeScript names identities over UTF-16 strings, Go over byte strings, Rust over UTF-8 text
and Python over code points. Each builder is compared with the portable scheme.
-/

namespace DialCache.KeyPorts

open UnicodeText JsValues CacheKeys RuntimeConfig PortableKeys HostKeys

/-! ### String representations -/

variable {t : Text}

theorem units_of_ascii (h : IsAscii t) : units t = t.map fun c => UInt16.ofNat c.toNat := by
  induction t with
  | nil => rfl
  | cons c t ih =>
    have hc := h c List.mem_cons_self
    have ht := ih (fun d hd => h d (List.mem_cons_of_mem _ hd))
    have hunits : unitsOf c = [UInt16.ofNat c.toNat] := by
      simp [unitsOf, show c.toNat < 0x10000 by omega]
    simp only [units, List.flatMap_cons, hunits, List.map_cons] at ht ⊢
    rw [ht]
    rfl

variable {c : Char}

theorem mem_unitsOf_iff {d : Char} (hc : c.toNat < 128) :
    UInt16.ofNat c.toNat ∈ unitsOf d ↔ c = d := by
  have hvalid := toNat_valid d
  have hcode : (UInt16.ofNat c.toNat).toNat = c.toNat := by
    simp only [UInt16.toNat_ofNat']
    omega
  unfold unitsOf
  split
  · rename_i hd
    have hunit : (UInt16.ofNat d.toNat).toNat = d.toNat := by
      simp only [UInt16.toNat_ofNat']
      omega
    rw [List.mem_singleton, ← UInt16.toNat_inj, hcode, hunit]
    exact ⟨fun h => Char.toNat_inj.mp h, fun h => by rw [h]⟩
  · rename_i hd
    simp only [List.mem_cons, List.not_mem_nil, or_false, ← UInt16.toNat_inj, hcode,
      UInt16.toNat_ofNat']
    constructor
    · intro h
      omega
    · intro h
      subst h
      omega

theorem mem_units_iff (hc : c.toNat < 128) : UInt16.ofNat c.toNat ∈ units t ↔ c ∈ t := by
  simp only [units, List.mem_flatMap, mem_unitsOf_iff hc]
  constructor
  · intro h
    obtain ⟨d, hd, heq⟩ := h
    rwa [heq]
  · intro h
    exact ⟨c, h, rfl⟩

/-- UTF-16 strings. Those with an unpaired surrogate represent no text. -/
def utf16 : Host UInt16 where
  read s := if isWellFormed s then some (scalars s) else none
  write := units
  unit c := UInt16.ofNat c.toNat
  read_write := by
    intro t
    simp [isWellFormed]
  write_of_read := by
    intro s t h
    split at h
    · rename_i hwell
      obtain rfl := Option.some.inj h
      simpa [isWellFormed, toWellFormed] using hwell
    · cases h
  write_ascii := units_of_ascii
  unit_mem_write := mem_units_iff

theorem utf8EncodeChar_ascii (h : c.toNat < 128) :
    String.utf8EncodeChar c = [UInt8.ofNat c.toNat] := by
  have hval : c.val.toNat ≤ 0x7f := by
    have : c.val.toNat < 128 := h
    omega
  unfold String.utf8EncodeChar
  dsimp only
  rw [if_pos hval]
  rfl

theorem utf8EncodeChar_high (h : 128 ≤ c.toNat) : ∀ b ∈ String.utf8EncodeChar c, 128 ≤ b.toNat := by
  have hvalid : c.val.toNat < 0x110000 := by
    have hcases := toNat_valid c
    have hnat : c.val.toNat = c.toNat := rfl
    omega
  have hval : 128 ≤ c.val.toNat := h
  intro b hb
  unfold String.utf8EncodeChar at hb
  generalize c.val.toNat = v at hvalid hval hb
  dsimp only at hb
  split at hb
  · omega
  split at hb
  · simp only [List.mem_cons, List.not_mem_nil, or_false] at hb
    rcases hb with rfl | rfl <;> rw [toNat_byte (by omega)] <;> omega
  split at hb
  · simp only [List.mem_cons, List.not_mem_nil, or_false] at hb
    rcases hb with rfl | rfl | rfl <;> rw [toNat_byte (by omega)] <;> omega
  · simp only [List.mem_cons, List.not_mem_nil, or_false] at hb
    rcases hb with rfl | rfl | rfl | rfl <;> rw [toNat_byte (by omega)] <;> omega

theorem encodeUtf8_of_ascii (h : IsAscii t) :
    encodeUtf8 t = t.map fun c => UInt8.ofNat c.toNat := by
  induction t with
  | nil => rfl
  | cons c t ih =>
    have hc := h c List.mem_cons_self
    have ht := ih (fun d hd => h d (List.mem_cons_of_mem _ hd))
    simp only [encodeUtf8, List.flatMap_cons, utf8EncodeChar_ascii hc, List.map_cons] at ht ⊢
    rw [ht]
    rfl

theorem mem_utf8EncodeChar_iff {d : Char} (hc : c.toNat < 128) :
    UInt8.ofNat c.toNat ∈ String.utf8EncodeChar d ↔ c = d := by
  have hcode : (UInt8.ofNat c.toNat).toNat = c.toNat := toNat_byte (by omega)
  by_cases hd : d.toNat < 128
  · have hunit : (UInt8.ofNat d.toNat).toNat = d.toNat := toNat_byte (by omega)
    rw [utf8EncodeChar_ascii hd, List.mem_singleton, ← UInt8.toNat_inj, hcode, hunit]
    exact ⟨fun h => Char.toNat_inj.mp h, fun h => by rw [h]⟩
  · constructor
    · intro h
      have hhigh := utf8EncodeChar_high (by omega) _ h
      omega
    · intro h
      subst h
      omega

theorem mem_encodeUtf8_iff (hc : c.toNat < 128) : UInt8.ofNat c.toNat ∈ encodeUtf8 t ↔ c ∈ t := by
  simp only [encodeUtf8, List.mem_flatMap, mem_utf8EncodeChar_iff hc]
  constructor
  · intro h
    obtain ⟨d, hd, heq⟩ := h
    rwa [heq]
  · intro h
    exact ⟨c, h, rfl⟩

/-- `utf8.ValidString`. -/
def validString (s : Bytes) : Bool := encodeUtf8 (decodeUtf8 s) == s

/-- Byte strings. Those that are not valid UTF-8 represent no text. -/
def utf8 : Host UInt8 where
  read s := if validString s then some (decodeUtf8 s) else none
  write := encodeUtf8
  unit c := UInt8.ofNat c.toNat
  read_write := by
    intro t
    simp [validString]
  write_of_read := by
    intro s t h
    split at h
    · rename_i hvalid
      obtain rfl := Option.some.inj h
      simpa [validString] using hvalid
    · cases h
  write_ascii := encodeUtf8_of_ascii
  unit_mem_write := mem_encodeUtf8_iff

/-- Strings that are text. -/
def scalarText : Host Char where
  read := some
  write t := t
  unit c := c
  read_write := by
    intro t
    rfl
  write_of_read := by
    intro s t h
    exact (Option.some.inj h).symm
  write_ascii := by
    intro t _
    simp
  unit_mem_write := by
    intro c t _
    rfl

/-! ### TypeScript -/

variable {ε α γ : Type}

theorem toOption_bind (x : Except ε α) (f : α → Except ε γ) :
    (x >>= f).toOption = x.toOption.bind fun a => (f a).toOption := by
  cases x <;> rfl

theorem toOption_map (x : Except ε α) (f : α → γ) : (f <$> x).toOption = x.toOption.map f := by
  cases x <;> rfl

theorem toOption_pure (a : α) : (pure a : Except ε α).toOption = some a := rfl

theorem toOption_ok (a : α) : (Except.ok a : Except ε α).toOption = some a := rfl

theorem toOption_error (e : ε) : (Except.error e : Except ε α).toOption = none := rfl

theorem toOption_mapM (f : α → Except ε γ) (l : List α) :
    (l.mapM f).toOption = l.mapM fun a => (f a).toOption := by
  induction l with
  | nil => rfl
  | cons a l ih =>
    rw [List.mapM_cons, List.mapM_cons, toOption_bind]
    cases h : (f a).toOption with
    | none => simp
    | some b =>
      rw [Option.bind_some, toOption_bind, ih]
      cases l.mapM fun a => (f a).toOption with
      | none => simp
      | some bs => simp [toOption_pure]

theorem intercalate_ampersand {β : Type} (unit : Char → β) (first : Text) (further : List Text) :
    List.intercalate [unit '&'] ((first :: further).map (List.map unit)) =
      (first ++ further.flatMap fun arg => '&' :: arg).map unit := by
  induction further generalizing first with
  | nil => simp [List.intercalate]
  | cons second further ih =>
    have htail := ih second
    simp only [List.intercalate, List.map_cons, List.intersperse_cons_cons, List.flatten_cons] at htail ⊢
    rw [htail]
    simp

namespace TypeScript

variable (identity : Identity JsString)

/-- The `DialCacheKey` constructor on an identity with ordered arguments. -/
def constructKey (defaultConfig : Option DialCacheKeyConfig) : Except KeyError DialCacheKey := do
  assertValidNamespace identity.cacheNamespace
  let ⟨keyPrefix, tracked⟩ ←
    checkedPrefix identity.cacheNamespace identity.keyType identity.id identity.tracked
  let args ← encodeArgs identity.args
  let useCase ← encodeComponent identity.useCase
  return {
    keyType := identity.keyType
    id := identity.id
    useCase := identity.useCase
    cacheNamespace := identity.cacheNamespace
    keyPrefix
    urn := keyPrefix ++ args ++ text "#" ++ useCase
    defaultConfig
    trackForInvalidation := identity.tracked
    tracked_keyPrefix := tracked }

/-- The names of an identity: its logical key, the key of its value and, if it is tracked,
the key of its entity's watermark. -/
def keys : Except KeyError (KeyNames JsString) := do
  let key ← constructKey identity none
  let watermark ← if identity.tracked then
      some <$> redisWatermarkKey key.cacheNamespace key.keyType key.id
    else pure none
  return ⟨key.urn, redisKey key, watermark⟩

theorem hexDigit_eq {n : ℕ} (h : n < 16) : hexDigit n = utf16.unit (hexChar n) := by
  have hnat := toNat_hexChar h
  simp only [hexDigit, utf16, hnat]

theorem percentEncode_eq (b : UInt8) : percentEncode b = (escapeByte b).map utf16.unit := by
  have hb := b.toNat_lt
  unfold percentEncode escapeByte
  split
  · rename_i hun
    have hlt := isUnreserved_lt hun
    have hunit : b.toUInt16 = UInt16.ofNat (Char.ofNat b.toNat).toNat := by
      rw [toNat_char_of_lt hlt, ← UInt16.toNat_inj]
      simp only [UInt8.toNat_toUInt16, UInt16.toNat_ofNat']
      omega
    simp [utf16, hunit]
  · rw [hexDigit_eq (by omega), hexDigit_eq (by omega)]
    rfl

theorem toOption_encodeComponent (s : JsString) : (encodeComponent s).toOption =
    (utf16.read s).map fun t => (escape t).map utf16.unit := by
  have hbytes : ∀ bs : Bytes, bs.flatMap percentEncode =
      (bs.flatMap escapeByte).map utf16.unit := by
    intro bs
    induction bs with
    | nil => rfl
    | cons b bs ih => simp only [List.flatMap_cons, ih, percentEncode_eq, List.map_append]
  unfold encodeComponent
  cases hwell : isWellFormed s with
  | false => simp [utf16, hwell, toOption_error]
  | true => simp [utf16, hwell, toOption_ok, hbytes, escape]

variable (n k i : JsString)

theorem toOption_joinUrnComponents : (joinUrnComponents [n, k, i]).toOption = (do
      let n ← utf16.read n
      let k ← utf16.read k
      let i ← utf16.read i
      return (entity n k i).map utf16.unit) := by
  have hcolon : text ":" = [utf16.unit ':'] := by decide +kernel
  simp only [joinUrnComponents, toOption_bind, List.mapM_cons, List.mapM_nil,
    toOption_encodeComponent, toOption_pure]
  cases utf16.read n <;> cases utf16.read k <;> cases utf16.read i <;>
    simp [entity, hcolon, List.intercalate]

theorem toOption_encodeArg (arg : JsString × JsString) : (encodeArg arg).toOption =
    (readArg utf16.read arg).map fun t => (escapedArg t).map utf16.unit := by
  have hequals : text "=" = [utf16.unit '='] := by decide +kernel
  simp only [encodeArg, toOption_bind, toOption_encodeComponent, toOption_pure, readArg]
  cases utf16.read arg.1 <;> cases utf16.read arg.2 <;> simp [escapedArg, hequals]

theorem toOption_encodeArgs (args : List (JsString × JsString)) : (encodeArgs args).toOption =
    (args.mapM (readArg utf16.read)).map fun ts => (query ts).map utf16.unit := by
  have hquestion : text "?" = [utf16.unit '?'] := by decide +kernel
  have hampersand : text "&" = [utf16.unit '&'] := by decide +kernel
  have hmap : ∀ args : List (JsString × JsString), (args.mapM encodeArg).toOption =
      (args.mapM (readArg utf16.read)).map fun ts => ts.map fun t =>
        (escapedArg t).map utf16.unit := by
    intro args
    rw [toOption_mapM]
    induction args with
    | nil => rfl
    | cons arg args ih =>
      rw [List.mapM_cons, List.mapM_cons, ih, toOption_encodeArg]
      cases readArg utf16.read arg <;> cases args.mapM (readArg utf16.read) <;> rfl
  cases args with
  | nil => rfl
  | cons arg args =>
    simp only [encodeArgs, List.isEmpty_cons, Bool.false_eq_true, if_false, toOption_bind, hmap,
      toOption_pure]
    cases hread : (arg :: args).mapM (readArg utf16.read) with
    | none => rfl
    | some ts =>
      cases ts with
      | nil =>
        have hargs := utf16.write_readArgs hread
        cases hargs
      | cons t ts =>
        have hjoin := intercalate_ampersand utf16.unit (escapedArg t) (ts.map escapedArg)
        simp only [List.map_cons, List.map_map, Function.comp_def] at hjoin
        simp [hquestion, hampersand, query, hjoin, List.flatMap_map]

theorem hasBrace_of_read {s : JsString} (h : utf16.read s = some t) : hasBrace s = isBraced t := by
  have hopening := utf16.unit_mem_write (c := '{') (t := t) (by decide)
  have hclosing := utf16.unit_mem_write (c := '}') (t := t) (by decide)
  rw [utf16.write_of_read h] at hopening hclosing
  have hunits : utf16.unit '{' = 123 ∧ utf16.unit '}' = 125 := by decide
  rw [hunits.1] at hopening
  rw [hunits.2] at hclosing
  simp only [hasBrace, isBraced, List.contains_eq_mem, hopening, hclosing]

theorem hasBrace_entity (n k i : Text) : hasBrace ((entity n k i).map utf16.unit) = false := by
  have hread : utf16.read ((entity n k i).map utf16.unit) = some (entity n k i) := by
    rw [← utf16.write_ascii (isAscii_entity n k i)]
    exact utf16.read_write _
  have hopening := brace_notMem_entity (n := n) (k := k) (i := i) (Or.inl (rfl : '{' = '{'))
  have hclosing := brace_notMem_entity (n := n) (k := k) (i := i) (Or.inr (rfl : '}' = '}'))
  rw [hasBrace_of_read hread]
  simp [isBraced, hopening, hclosing]

theorem toOption_entityHashTag : (entityHashTag n k i).toOption = (do
    let n ← utf16.read n
    let k ← utf16.read k
    let i ← utf16.read i
    if isBraced n || isBraced k || isBraced i then none
    else return (hashTagged (entity n k i)).map utf16.unit) := by
  have hinvalidation : (invalidationPrefix n k i).toOption =
      if hasBrace n || hasBrace k || hasBrace i then none
      else (joinUrnComponents [n, k, i]).toOption := by
    simp only [invalidationPrefix, assertValidNamespace, assertRedisHashTagComponent, toOption_bind]
    cases hasBrace n <;> cases hasBrace k <;> cases hasBrace i <;> rfl
  have htag : ∀ n k i : Text,
      (redisClusterHashTag ((entity n k i).map utf16.unit)).toOption =
        some ((hashTagged (entity n k i)).map utf16.unit) := by
    intro n k i
    have hopening : utf16.unit '{' = 123 := rfl
    have hclosing : utf16.unit '}' = 125 := rfl
    simp [redisClusterHashTag, assertRedisHashTagComponent, hasBrace_entity,
      hashTagged, hopening, hclosing, toOption_ok]
  rw [entityHashTag, toOption_bind, hinvalidation, toOption_joinUrnComponents]
  cases hn : utf16.read n with
  | none => split <;> rfl
  | some n' =>
    cases hk : utf16.read k with
    | none => split <;> rfl
    | some k' =>
      cases hi : utf16.read i with
      | none => split <;> rfl
      | some i' =>
        rw [hasBrace_of_read hn, hasBrace_of_read hk, hasBrace_of_read hi]
        cases hbn : isBraced n' <;> cases hbk : isBraced k' <;> cases hbi : isBraced i' <;>
          simp [htag, hbn, hbk, hbi]

theorem toOption_checkedPrefix (tracked : Bool) : (checkedPrefix n k i tracked).toOption.map (·.1) =
      if tracked then (entityHashTag n k i).toOption
      else (joinUrnComponents [n, k, i]).toOption := by
  have hjoined : (entityHashTag n k i).toOption.isSome = true →
      (joinUrnComponents [n, k, i]).toOption.isSome = true := by
    rw [toOption_entityHashTag, toOption_joinUrnComponents]
    cases utf16.read n <;> cases utf16.read k <;> cases utf16.read i <;> simp
  cases hjoin : joinUrnComponents [n, k, i] with
  | error e =>
    rw [hjoin] at hjoined
    cases htag : (entityHashTag n k i).toOption with
    | some tag => simp [htag, toOption_error] at hjoined
    | none => cases tracked <;> simp [checkedPrefix, hjoin, toOption_bind, toOption_error]
  | ok rawPrefix =>
    cases tracked with
    | false => simp [checkedPrefix, hjoin, toOption_bind, toOption_ok]
    | true =>
      simp only [checkedPrefix, hjoin, toOption_bind, toOption_ok, Option.bind_some, dif_pos,
        if_true]
      split
      · rename_i tag htag
        simp [htag, toOption_ok]
      · rename_i e htag
        simp [htag, toOption_error]

theorem toOption_redisWatermarkKey : (redisWatermarkKey n k i).toOption =
    (entityHashTag n k i).toOption.map (· ++ text "#watermark") := by
  unfold redisWatermarkKey
  cases entityHashTag n k i <;> rfl

theorem toOption_constructKey : (keys identity).toOption =
    if hasBrace identity.cacheNamespace then none else do
      let keyPrefix ← (checkedPrefix identity.cacheNamespace identity.keyType identity.id
        identity.tracked).toOption.map (·.1)
      let args ← (encodeArgs identity.args).toOption
      let useCase ← (encodeComponent identity.useCase).toOption
      let watermark ← if identity.tracked then
          (entityHashTag identity.cacheNamespace identity.keyType identity.id).toOption.map
            fun tag => some (tag ++ text "#watermark")
        else some none
      let urn := keyPrefix ++ args ++ text "#" ++ useCase
      return ⟨urn, urn ++ text ":dialcache-frame-v1", watermark⟩ := by
  simp only [keys, constructKey, toOption_bind, assertValidNamespace]
  cases hasBrace identity.cacheNamespace with
  | true => rfl
  | false =>
    cases hstart : checkedPrefix identity.cacheNamespace identity.keyType identity.id
        identity.tracked with
    | error e => rfl
    | ok checked =>
      cases hargs : encodeArgs identity.args with
      | error e => rfl
      | ok args =>
        cases huse : encodeComponent identity.useCase with
        | error e => rfl
        | ok useCase =>
          by_cases htracked : identity.tracked = true
          · simp only [toOption_map, toOption_ok, toOption_pure, toOption_redisWatermarkKey, redisKey,
              htracked, if_true, Option.bind_some, Option.map_some, Option.bind_eq_bind,
              toOption_bind, Bool.false_eq_true, if_false]
            cases (entityHashTag identity.cacheNamespace identity.keyType identity.id).toOption <;> rfl
          · simp [toOption_ok, toOption_pure, redisKey, htracked]

/-- The TypeScript builder follows the portable scheme. -/
theorem toOption_keys : (keys identity).toOption = utf16.keys identity := by
  have hhash : text "#" = [utf16.unit '#'] := by decide +kernel
  have hframe : text ":dialcache-frame-v1" = frameSuffix.map utf16.unit := by decide +kernel
  have hwatermark : text "#watermark" = watermarkSuffix.map utf16.unit := by decide +kernel
  rw [toOption_constructKey, toOption_checkedPrefix, toOption_entityHashTag,
    toOption_joinUrnComponents, toOption_encodeArgs, toOption_encodeComponent, hhash, hframe,
    hwatermark]
  cases hn : utf16.read identity.cacheNamespace with
  | none => cases identity.tracked <;> cases hasBrace identity.cacheNamespace <;>
      simp [Host.keys, readIdentity, hn]
  | some n =>
    rw [hasBrace_of_read hn]
    cases hk : utf16.read identity.keyType with
    | none => cases identity.tracked <;> cases isBraced n <;> simp [Host.keys, readIdentity, hn, hk]
    | some k =>
      cases hi : utf16.read identity.id with
      | none => cases identity.tracked <;> cases isBraced n <;>
          simp [Host.keys, readIdentity, hn, hk, hi]
      | some i =>
        cases ha : identity.args.mapM (readArg utf16.read) with
        | none =>
          cases hbn : isBraced n <;> simp [Host.keys, readIdentity, hn, hk, hi, ha]
        | some args =>
          cases hu : utf16.read identity.useCase with
          | none => cases hbn : isBraced n <;> simp [Host.keys, readIdentity, hn, hk, hi, ha, hu]
          | some u =>
            cases htracked : identity.tracked <;> cases hbn : isBraced n <;>
              cases hbk : isBraced k <;> cases hbi : isBraced i <;>
              simp [Host.keys, readIdentity, hn, hk, hi, ha, hu, htracked, PortableKeys.keys,
                accepts, hbn, hbk, hbi, KeyNames.map, logicalName, namePrefix, watermarkName]

theorem read_isSome (s : JsString) : ((utf16.read s).isSome = true) = (isWellFormed s = true) := by
  cases h : isWellFormed s <;> simp [utf16, h]

/-- An entity's watermark key is the one of its tracked identities. -/
theorem toOption_redisWatermarkKey_eq : (redisWatermarkKey n k i).toOption =
    (keys ⟨n, k, i, [], [], true⟩).toOption.bind (·.watermark) := by
  have hwatermark : text "#watermark" = watermarkSuffix.map utf16.unit := by decide +kernel
  have hempty : utf16.read [] = some [] := rfl
  rw [toOption_redisWatermarkKey, toOption_entityHashTag, toOption_keys, hwatermark]
  cases hn : utf16.read n with
  | none => simp [Host.keys, readIdentity, hn]
  | some n' =>
    cases hk : utf16.read k with
    | none => simp [Host.keys, readIdentity, hn, hk]
    | some k' =>
      cases hi : utf16.read i with
      | none => simp [Host.keys, readIdentity, hn, hk, hi]
      | some i' =>
        cases hbn : isBraced n' <;> cases hbk : isBraced k' <;> cases hbi : isBraced i' <;>
          simp [Host.keys, readIdentity, hn, hk, hi, hempty, PortableKeys.keys, accepts, hbn, hbk,
            hbi, KeyNames.map, watermarkName]

end TypeScript

/-! ### Go and Rust -/

section Delimiters

variable {β : Type} (unit : Char → β) (escape : List β → List β)

/-- The loop over the arguments of an identity: each is appended behind its delimiter. -/
def appendArgs (logical : List β) (args : List (List β × List β)) : List β :=
  args.zipIdx.foldl (fun logical (arg, index) =>
    logical ++ [if index = 0 then unit '?' else unit '&'] ++ escape arg.1 ++ [unit '='] ++
      escape arg.2) logical

variable {unit escape}

/-- The loop appends the arguments as the portable scheme writes them. -/
theorem appendArgs_eq {logical : List β} {args : List (List β × List β)} {ts : List (Text × Text)}
    (h : args.map (fun arg => (escape arg.1, escape arg.2)) =
      ts.map fun t => ((PortableKeys.escape t.1).map unit, (PortableKeys.escape t.2).map unit)) :
    appendArgs unit escape logical args = logical ++ (query ts).map unit := by
  have hfurther : ∀ (args : List (List β × List β)) (ts : List (Text × Text)) (logical : List β)
      (start : ℕ), args.map (fun arg => (escape arg.1, escape arg.2)) =
        ts.map (fun t => ((PortableKeys.escape t.1).map unit, (PortableKeys.escape t.2).map unit)) →
      (args.zipIdx (start + 1)).foldl (fun logical (arg, index) =>
        logical ++ [if index = 0 then unit '?' else unit '&'] ++ escape arg.1 ++ [unit '='] ++
          escape arg.2) logical =
        logical ++ (ts.flatMap fun t => '&' :: escapedArg t).map unit := by
    intro args
    induction args with
    | nil =>
      intro ts logical start h
      cases ts with
      | nil => simp
      | cons t ts => cases h
    | cons arg args ih =>
      intro ts logical start h
      cases ts with
      | nil => cases h
      | cons t ts =>
        simp only [List.map_cons, List.cons.injEq, Prod.mk.injEq] at h
        obtain ⟨⟨hname, hvalue⟩, hrest⟩ := h
        rw [List.zipIdx_cons, List.foldl_cons, ih ts _ (start + 1) hrest]
        simp [hname, hvalue, escapedArg]
  cases args with
  | nil =>
    cases ts with
    | nil => simp [appendArgs, query]
    | cons t ts => cases h
  | cons arg args =>
    cases ts with
    | nil => cases h
    | cons t ts =>
      simp only [List.map_cons, List.cons.injEq, Prod.mk.injEq] at h
      obtain ⟨⟨hname, hvalue⟩, hrest⟩ := h
      rw [appendArgs, List.zipIdx_cons, List.foldl_cons, hfurther args ts _ 0 hrest]
      simp [hname, hvalue, escapedArg, query]

end Delimiters

theorem forall_byte {P : UInt8 → Prop} (h : ∀ n < 256, P (UInt8.ofNat n)) (b : UInt8) : P b := by
  have hb := h b.toNat b.toNat_lt
  rwa [UInt8.ofNat_toNat] at hb

namespace Go

abbrev GoString := Bytes

def literal (text : String) : GoString := text.toList.map utf8.unit

/-- `strings.ContainsAny(part, "\x7b\x7d")`. -/
def containsBrace (part : GoString) : Bool := part.any fun b => b == 123 || b == 125

def hexDigits : GoString := literal "0123456789ABCDEF"

def escapeByte (v : UInt8) : GoString :=
  if (97 ≤ v && v ≤ 122) || (65 ≤ v && v ≤ 90) || (48 ≤ v && v ≤ 57) ||
      (literal "~!*'()-._").contains v then [v]
  else [37, hexDigits.getD (v >>> 4).toNat 0, hexDigits.getD (v &&& 15).toNat 0]

def escape (s : GoString) : GoString := s.flatMap escapeByte

/-- The parts that may become a hash tag. -/
def reservedParts (identity : Identity GoString) : List GoString :=
  identity.cacheNamespace :: if identity.tracked then [identity.keyType, identity.id] else []

/-- `Identity.Keys`. An untracked identity has an empty watermark key, which is `none`. -/
def keys (identity : Identity GoString) : Except String (KeyNames GoString) :=
  if (reservedParts identity).any containsBrace then
    .error "identity contains a reserved hash-tag delimiter"
  else if [identity.cacheNamespace, identity.keyType, identity.id, identity.useCase].any
      (!validString ·) then
    .error "identity must contain valid Unicode scalars"
  else if identity.args.any fun arg => !validString arg.1 || !validString arg.2 then
    .error "argument must contain valid Unicode scalars"
  else
    let entity := escape identity.cacheNamespace ++ literal ":" ++ escape identity.keyType ++
      literal ":" ++ escape identity.id
    let tagged := if identity.tracked then literal "\x7b" ++ entity ++ literal "\x7d" else entity
    let watermark := if identity.tracked then some (tagged ++ literal "#watermark") else none
    let logical := appendArgs utf8.unit escape tagged identity.args ++ literal "#" ++
      escape identity.useCase
    .ok ⟨logical, logical ++ literal ":dialcache-frame-v1", watermark⟩

theorem escapeByte_eq (v : UInt8) : escapeByte v = (PortableKeys.escapeByte v).map utf8.unit := by
  have hall : ∀ n < 256, escapeByte (UInt8.ofNat n) =
      (PortableKeys.escapeByte (UInt8.ofNat n)).map utf8.unit := by decide +kernel
  exact forall_byte (P := fun v => escapeByte v = (PortableKeys.escapeByte v).map utf8.unit) hall v

theorem escape_write (t : Text) :
    escape (utf8.write t) = (PortableKeys.escape t).map utf8.unit := by
  have hbytes : ∀ bs : Bytes, bs.flatMap escapeByte =
      (bs.flatMap PortableKeys.escapeByte).map utf8.unit := by
    intro bs
    induction bs with
    | nil => rfl
    | cons b bs ih => simp only [List.flatMap_cons, ih, escapeByte_eq, List.map_append]
  exact hbytes (encodeUtf8 t)

theorem containsBrace_write (t : Text) : containsBrace (utf8.write t) = isBraced t := by
  have hopening := utf8.unit_mem_write (c := '{') (t := t) (by decide)
  have hclosing := utf8.unit_mem_write (c := '}') (t := t) (by decide)
  have hunits : utf8.unit '{' = 123 ∧ utf8.unit '}' = 125 := by decide
  rw [hunits.1] at hopening
  rw [hunits.2] at hclosing
  rw [Bool.eq_iff_iff]
  simp only [containsBrace, isBraced, List.contains_eq_mem, List.any_eq_true, Bool.or_eq_true,
    beq_iff_eq, decide_eq_true_eq, ← hopening, ← hclosing]
  constructor
  · intro h
    obtain ⟨b, hb, hor⟩ := h
    rcases hor with rfl | rfl
    · exact Or.inl hb
    · exact Or.inr hb
  · intro hor
    rcases hor with hb | hb
    · exact ⟨_, hb, Or.inl rfl⟩
    · exact ⟨_, hb, Or.inr rfl⟩

theorem validString_iff_read (s : GoString) : validString s = true ↔ (utf8.read s).isSome = true := by
  cases h : validString s <;> simp [utf8, h]

theorem validString_write (t : Text) : validString (utf8.write t) = true := by
  rw [validString_iff_read, utf8.read_write]
  rfl

theorem escape_args (ts : List (Text × Text)) :
    (ts.map fun t => (utf8.write t.1, utf8.write t.2)).map
        (fun arg => (escape arg.1, escape arg.2)) =
      ts.map fun t => ((PortableKeys.escape t.1).map utf8.unit,
        (PortableKeys.escape t.2).map utf8.unit) := by
  rw [List.map_map]
  apply List.map_congr_left
  intro t _
  simp only [Function.comp_apply, escape_write]

theorem reservedParts_write (portable : Identity Text) :
    (reservedParts (portable.map utf8.write)).any containsBrace = !accepts portable := by
  cases htracked : portable.tracked <;>
    simp [reservedParts, Identity.map, htracked, containsBrace_write, accepts]

/-- The Go builder follows the portable scheme. -/
theorem toOption_keys (identity : Identity GoString) :
    (keys identity).toOption = utf8.keys identity := by
  cases hread : readIdentity utf8.read identity with
  | none =>
    have hnone : utf8.keys identity = none := by simp [Host.keys, hread]
    have hinvalid := (readIdentity_isSome utf8.read identity).not
    rw [hread] at hinvalid
    rw [hnone]
    cases hkeys : keys identity with
    | error e => rfl
    | ok names =>
      apply absurd _ (hinvalid.mp (by simp))
      intro component hc
      rw [← validString_iff_read]
      unfold keys at hkeys
      split at hkeys
      · cases hkeys
      split at hkeys
      · cases hkeys
      split at hkeys
      · cases hkeys
      rename_i hidentity hargs
      simp only [Identity.components, List.mem_append, List.mem_flatMap] at hc
      rcases hc with hc | ⟨arg, harg, hc⟩
      · simp only [List.any_eq_true, not_exists, not_and, Bool.not_eq_true] at hidentity
        simpa using hidentity component hc
      · simp only [List.any_eq_true, not_exists, not_and, Bool.not_eq_true,
          Bool.or_eq_false_iff] at hargs
        have hvalid := hargs arg harg
        simp only [List.mem_cons, List.not_mem_nil, or_false] at hc
        rcases hc with rfl | rfl
        · simpa using hvalid.1
        · simpa using hvalid.2
  | some portable =>
    obtain rfl := utf8.map_write_of_read hread
    have hvalid : ((portable.map utf8.write).args.any fun arg =>
        !validString arg.1 || !validString arg.2) = false := by
      simp [Identity.map, validString_write]
    have hframe : literal ":dialcache-frame-v1" = frameSuffix.map utf8.unit := by decide +kernel
    have hwatermark : literal "#watermark" = watermarkSuffix.map utf8.unit := by decide +kernel
    have hcolon : literal ":" = [utf8.unit ':'] := by decide +kernel
    have hhash : literal "#" = [utf8.unit '#'] := by decide +kernel
    have hopening : literal "\x7b" = [utf8.unit '{'] := by decide +kernel
    have hclosing : literal "\x7d" = [utf8.unit '}'] := by decide +kernel
    rw [keys, reservedParts_write, utf8.keys_map_write, PortableKeys.keys]
    cases haccepts : accepts portable with
    | false => rfl
    | true =>
      cases htracked : portable.tracked <;>
        simp [Identity.map, htracked, validString_write, escape_write, appendArgs_eq (escape_args _),
          hcolon, hhash, hopening, hclosing, hframe, hwatermark, toOption_ok, logicalName, namePrefix,
          entity, hashTagged, KeyNames.map, watermarkName]

end Go

namespace Rust

inductive IdentityError where
  | reservedDelimiter
deriving DecidableEq

def containsBrace (component : Text) : Bool := component.any fun c => c == '{' || c == '}'

def isAsciiAlphanumeric (byte : UInt8) : Bool :=
  (48 ≤ byte && byte ≤ 57) || (65 ≤ byte && byte ≤ 90) || (97 ≤ byte && byte ≤ 122)

/-- One digit of the `X` format. -/
def upperHex (n : ℕ) : Char := if n < 10 then Char.ofNat (48 + n) else Char.ofNat (65 + (n - 10))

def escapeByte (byte : UInt8) : Text :=
  if isAsciiAlphanumeric byte || [45, 95, 46, 33, 126, 42, 39, 40, 41].contains byte then
    [Char.ofNat byte.toNat]
  else ['%', upperHex (byte.toNat / 16), upperHex (byte.toNat % 16)]

def escapeComponent (component : Text) : Text := (encodeUtf8 component).flatMap escapeByte

/-- `identity::keys`. -/
def keys (identity : Identity Text) : Except IdentityError (KeyNames Text) :=
  if containsBrace identity.cacheNamespace || (identity.tracked &&
      (containsBrace identity.keyType || containsBrace identity.id)) then
    .error .reservedDelimiter
  else
    let entity := escapeComponent identity.cacheNamespace ++ [':'] ++
      escapeComponent identity.keyType ++ [':'] ++ escapeComponent identity.id
    let (tagged, watermark) := if identity.tracked then
        let tagged := ['{'] ++ entity ++ ['}']
        (tagged, some (tagged ++ "#watermark".toList))
      else (entity, none)
    let logical := appendArgs (fun c => c) escapeComponent tagged identity.args ++ ['#'] ++
      escapeComponent identity.useCase
    .ok ⟨logical, logical ++ ":dialcache-frame-v1".toList, watermark⟩

theorem escapeByte_eq (byte : UInt8) : escapeByte byte = PortableKeys.escapeByte byte := by
  have hall : ∀ n < 256, escapeByte (UInt8.ofNat n) = PortableKeys.escapeByte (UInt8.ofNat n) := by
    decide +kernel
  exact forall_byte (P := fun byte => escapeByte byte = PortableKeys.escapeByte byte) hall byte

theorem escapeComponent_eq (t : Text) : escapeComponent t = PortableKeys.escape t := by
  simp only [escapeComponent, PortableKeys.escape, funext escapeByte_eq]

theorem containsBrace_eq (t : Text) : containsBrace t = isBraced t := by
  induction t with
  | nil => rfl
  | cons c t ih =>
    have hsplit : isBraced (c :: t) = ((c == '{' || c == '}') || isBraced t) := by
      simp only [isBraced, List.contains_cons, BEq.comm, Bool.or_assoc, Bool.or_left_comm]
    rw [hsplit, ← ih]
    rfl

/-- The Rust builder follows the portable scheme. -/
theorem toOption_keys (identity : Identity Text) :
    (keys identity).toOption = PortableKeys.keys identity := by
  have hargs : ∀ logical : Text, appendArgs (fun c => c) escapeComponent logical identity.args =
      logical ++ query identity.args := by
    intro logical
    have hmap : appendArgs (fun c => c) escapeComponent logical identity.args =
        logical ++ (query identity.args).map fun c => c :=
      appendArgs_eq (by simp [escapeComponent_eq])
    simpa using hmap
  have haccepts : (containsBrace identity.cacheNamespace || (identity.tracked &&
      (containsBrace identity.keyType || containsBrace identity.id))) = !accepts identity := by
    simp only [containsBrace_eq, accepts]
    cases isBraced identity.cacheNamespace <;> simp
  rw [keys, haccepts, PortableKeys.keys]
  cases accepts identity with
  | false => simp [toOption_error]
  | true =>
    have hframe : ":dialcache-frame-v1".toList = frameSuffix := rfl
    have hwatermark : "#watermark".toList = watermarkSuffix := rfl
    simp only [hframe, hwatermark, hargs, escapeComponent_eq]
    cases htracked : identity.tracked <;>
      simp [toOption_ok, logicalName, namePrefix, entity, hashTagged, watermarkName, htracked]

theorem toOption_keys_eq (identity : Identity Text) :
    (keys identity).toOption = scalarText.keys identity := by
  have hmap : identity.map scalarText.write = identity := by
    cases identity
    simp [Identity.map, scalarText]
  have hid : ∀ names : KeyNames Text, names.map (List.map scalarText.unit) = names := by
    intro names
    cases names with
    | mk logical value watermark => cases watermark <;> simp [KeyNames.map, scalarText]
  have hkeys := scalarText.keys_map_write identity
  rw [hmap] at hkeys
  rw [hkeys, toOption_keys]
  cases PortableKeys.keys identity with
  | none => rfl
  | some names => rw [Option.map_some, hid]

end Rust

/-! ### The law -/

/-- Keys of TypeScript, Go and Rust determine what they name, and the slots agree. The watermark
key that a TypeScript invalidation writes is the one of the tracked identities of its entity. -/
theorem key_law :
    KeyLaw (123 : UInt16) 125 (fun s => isWellFormed s = true)
      (fun identity => (TypeScript.keys identity).toOption) ∧
    (∀ cacheNamespace keyType id, (redisWatermarkKey cacheNamespace keyType id).toOption =
      (TypeScript.keys ⟨cacheNamespace, keyType, id, [], [], true⟩).toOption.bind (·.watermark)) ∧
    KeyLaw (123 : UInt8) 125 (fun s => validString s = true)
      (fun identity => (Go.keys identity).toOption) ∧
    KeyLaw '{' '}' (fun _ => True) (fun identity => (Rust.keys identity).toOption) := by
  have htypescript := utf16.keyLaw
  rw [← funext TypeScript.toOption_keys, funext TypeScript.read_isSome] at htypescript
  have hgo := utf8.keyLaw
  rw [← funext Go.toOption_keys, ← funext fun s => propext (Go.validString_iff_read s)] at hgo
  have hrust := scalarText.keyLaw
  have hread : (fun s : Text => (scalarText.read s).isSome = true) = fun _ => True := by
    funext s
    simp [scalarText]
  rw [hread, ← funext Rust.toOption_keys_eq] at hrust
  exact ⟨htypescript, TypeScript.toOption_redisWatermarkKey_eq, hgo, hrust⟩

end DialCache.KeyPorts
