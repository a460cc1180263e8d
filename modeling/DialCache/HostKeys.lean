import DialCache.PortableKeys

/-!
# What keys determine, in every string representation

A host language represents text by its own string units, and some of its strings may
represent no text. `KeyLaw` says what a key builder of that language owes. It is
proved once for a builder that reads the components of an identity, names them by the
portable scheme and writes the names back.
-/

namespace DialCache.HostKeys

open UnicodeText CacheKeys PortableKeys

/-- The strings of a host language: lists of units, some of which represent text. -/
structure Host (β : Type) where
  read : List β → Option Text
  write : Text → List β
  unit : Char → β
  read_write : ∀ t, read (write t) = some t
  write_of_read : ∀ {s t}, read s = some t → write t = s
  write_ascii : ∀ {t}, IsAscii t → write t = t.map unit
  unit_mem_write : ∀ {c : Char} {t : Text}, c.toNat < 128 → (unit c ∈ write t ↔ c ∈ t)

section Law

variable {β : Type} [DecidableEq β]

def Braced (opening closing : β) (component : List β) : Prop :=
  opening ∈ component ∨ closing ∈ component

/-- What the keys of a host language owe. `valid` holds of the strings that represent text. -/
structure KeyLaw (opening closing : β) (valid : List β → Prop)
    (names : Identity (List β) → Option (KeyNames (List β))) : Prop where
  accepts_iff : ∀ identity, (names identity).isSome = true ↔
    (∀ component ∈ identity.components, valid component) ∧
      ¬ Braced opening closing identity.cacheNamespace ∧
      (identity.tracked = true →
        ¬ Braced opening closing identity.keyType ∧ ¬ Braced opening closing identity.id)
  logical_inj : ∀ {i j k l}, names i = some k → names j = some l → k.logical = l.logical → i = j
  value_inj : ∀ {i j k l}, names i = some k → names j = some l → k.value = l.value → i = j
  value_ne_watermark : ∀ {i j k l w}, names i = some k → names j = some l →
    l.watermark = some w → k.value ≠ w
  watermark_inj : ∀ {i j k l w}, names i = some k → names j = some l →
    k.watermark = some w → l.watermark = some w →
    i.cacheNamespace = j.cacheNamespace ∧ i.keyType = j.keyType ∧ i.id = j.id
  watermark_of_entity : ∀ {i j k l}, names i = some k → names j = some l → i.tracked = true →
    j.tracked = true → i.cacheNamespace = j.cacheNamespace → i.keyType = j.keyType →
    i.id = j.id → k.watermark = l.watermark
  tracked_slot : ∀ {i k}, names i = some k → i.tracked = true → ∃ watermark tag,
    k.watermark = some watermark ∧ tag ≠ [] ∧ hashTag opening closing k.value = some tag ∧
      hashTag opening closing watermark = some tag
  untracked : ∀ {i k}, names i = some k → i.tracked = false →
    k.watermark = none ∧ opening ∉ k.value

end Law

/-! ### Reading an identity -/

section Read

variable {σ τ : Type} (read : σ → Option τ)

def readArg (arg : σ × σ) : Option (τ × τ) := do return (← read arg.1, ← read arg.2)

def readIdentity (identity : Identity σ) : Option (Identity τ) := do
  return {
    cacheNamespace := ← read identity.cacheNamespace
    keyType := ← read identity.keyType
    id := ← read identity.id
    args := ← identity.args.mapM (readArg read)
    useCase := ← read identity.useCase
    tracked := identity.tracked }

theorem mapM_isSome_iff {α : Type} {f : α → Option τ} (l : List α) :
    (l.mapM f).isSome = true ↔ ∀ a ∈ l, (f a).isSome = true := by
  induction l with
  | nil => simp
  | cons a l ih =>
    cases ha : f a with
    | none => simp [List.mapM_cons, ha]
    | some b =>
      cases hl : l.mapM f with
      | none | some bs =>
        rw [hl] at ih
        simpa [List.mapM_cons, ha, hl] using ih

theorem readArg_isSome (arg : σ × σ) : (readArg read arg).isSome = true ↔
    (read arg.1).isSome = true ∧ (read arg.2).isSome = true := by
  cases h1 : read arg.1 <;> cases h2 : read arg.2 <;> simp [readArg, h1, h2]

theorem readIdentity_isSome (identity : Identity σ) : (readIdentity read identity).isSome = true ↔
    ∀ component ∈ identity.components, (read component).isSome = true := by
  have hargs : (identity.args.mapM (readArg read)).isSome = true ↔
      ∀ arg ∈ identity.args, (read arg.1).isSome = true ∧ (read arg.2).isSome = true := by
    rw [mapM_isSome_iff]
    simp only [readArg_isSome]
  have hsplit : (readIdentity read identity).isSome = true ↔
      (read identity.cacheNamespace).isSome = true ∧ (read identity.keyType).isSome = true ∧
        (read identity.id).isSome = true ∧ (identity.args.mapM (readArg read)).isSome = true ∧
        (read identity.useCase).isSome = true := by
    cases h1 : read identity.cacheNamespace <;> cases h2 : read identity.keyType <;>
      cases h3 : read identity.id <;> cases h4 : identity.args.mapM (readArg read) <;>
      cases h5 : read identity.useCase <;> simp [readIdentity, h1, h2, h3, h4, h5]
  rw [hsplit, hargs]
  constructor
  · intro ⟨hn, hk, hi, ha, hu⟩ component hc
    simp only [Identity.components, List.mem_append, List.mem_cons, List.not_mem_nil, or_false,
      List.mem_flatMap] at hc
    rcases hc with (rfl | rfl | rfl | rfl) | ⟨arg, harg, rfl | rfl⟩
    · exact hn
    · exact hk
    · exact hi
    · exact hu
    · exact (ha arg harg).1
    · exact (ha arg harg).2
  · intro h
    have harg : ∀ arg ∈ identity.args, (read arg.1).isSome = true ∧ (read arg.2).isSome = true := by
      intro arg harg
      constructor
      · apply h
        exact List.mem_append_right _ (List.mem_flatMap.mpr ⟨arg, harg, by simp⟩)
      · apply h
        exact List.mem_append_right _ (List.mem_flatMap.mpr ⟨arg, harg, by simp⟩)
    exact ⟨h _ (by simp [Identity.components]), h _ (by simp [Identity.components]),
      h _ (by simp [Identity.components]), harg, h _ (by simp [Identity.components])⟩

end Read

namespace Host

variable {β : Type} (host : Host β)

/-- Name an identity by the portable scheme. -/
def keys (identity : Identity (List β)) : Option (KeyNames (List β)) := do
  let portable ← readIdentity host.read identity
  return (← PortableKeys.keys portable).map (List.map host.unit)

theorem map_unit_inj {t t' : Text} (ht : IsAscii t) (ht' : IsAscii t')
    (h : t.map host.unit = t'.map host.unit) : t = t' := by
  rw [← host.write_ascii ht, ← host.write_ascii ht'] at h
  have hread := congrArg host.read h
  rw [host.read_write, host.read_write] at hread
  exact Option.some.inj hread

theorem write_readArg {arg : List β × List β} {t : Text × Text}
    (h : readArg host.read arg = some t) : (host.write t.1, host.write t.2) = arg := by
  cases h1 : host.read arg.1 with
  | none => simp [readArg, h1] at h
  | some a =>
    cases h2 : host.read arg.2 with
    | none => simp [readArg, h1, h2] at h
    | some b =>
      obtain rfl : (a, b) = t := by simpa [readArg, h1, h2] using h
      rw [host.write_of_read h1, host.write_of_read h2]

theorem write_readArgs {args : List (List β × List β)} {ts : List (Text × Text)}
    (h : args.mapM (readArg host.read) = some ts) :
    ts.map (fun t => (host.write t.1, host.write t.2)) = args := by
  induction args generalizing ts with
  | nil =>
    obtain rfl : [] = ts := by simpa using h
    rfl
  | cons arg args ih =>
    cases h1 : readArg host.read arg with
    | none => simp [List.mapM_cons, h1] at h
    | some a =>
      cases h2 : args.mapM (readArg host.read) with
      | none => simp [List.mapM_cons, h1, h2] at h
      | some as =>
        obtain rfl : a :: as = ts := by simpa [List.mapM_cons, h1, h2] using h
        rw [List.map_cons, ih h2, host.write_readArg h1]

/-- An identity is determined by the text it was read as. -/
theorem map_write_of_read {identity : Identity (List β)} {portable : Identity Text}
    (h : readIdentity host.read identity = some portable) : portable.map host.write = identity := by
  cases h1 : host.read identity.cacheNamespace with
  | none => simp [readIdentity, h1] at h
  | some n =>
    cases h2 : host.read identity.keyType with
    | none => simp [readIdentity, h1, h2] at h
    | some k =>
      cases h3 : host.read identity.id with
      | none => simp [readIdentity, h1, h2, h3] at h
      | some i =>
        cases h4 : identity.args.mapM (readArg host.read) with
        | none => simp [readIdentity, h1, h2, h3, h4] at h
        | some args =>
          cases h5 : host.read identity.useCase with
          | none => simp [readIdentity, h1, h2, h3, h4, h5] at h
          | some u =>
            obtain rfl : Identity.mk n k i args u identity.tracked = portable := by
              simpa [readIdentity, h1, h2, h3, h4, h5] using h
            cases identity
            simp only [Identity.map, host.write_readArgs h4, host.write_of_read h1,
              host.write_of_read h2, host.write_of_read h3, host.write_of_read h5]

variable (portable : Identity Text)

theorem read_map_write : readIdentity host.read (portable.map host.write) = some portable := by
  have hargs : ∀ args : List (Text × Text), (args.map fun arg =>
      (host.write arg.1, host.write arg.2)).mapM (readArg host.read) = some args := by
    intro args
    induction args with
    | nil => rfl
    | cons arg args ih => simp [List.mapM_cons, readArg, host.read_write, ih]
  simp [readIdentity, Identity.map, host.read_write, hargs]

theorem keys_map_write : host.keys (portable.map host.write) =
    (PortableKeys.keys portable).map (KeyNames.map (List.map host.unit)) := by
  have hbind : host.keys (portable.map host.write) =
      (PortableKeys.keys portable).bind fun names => some (names.map (List.map host.unit)) := by
    rw [keys, host.read_map_write]
    rfl
  rw [hbind]
  cases PortableKeys.keys portable <;> rfl

/-- Names are written as any other text. -/
theorem keys_write : host.keys (portable.map host.write) =
    (PortableKeys.keys portable).map (KeyNames.map host.write) := by
  rw [host.keys_map_write]
  cases haccepts : accepts portable with
  | false => simp [PortableKeys.keys, haccepts]
  | true =>
    have hlogical := isAscii_logicalName portable
    cases htracked : portable.tracked <;>
      simp [PortableKeys.keys, haccepts, KeyNames.map, htracked, host.write_ascii hlogical,
        host.write_ascii (hlogical.append isAscii_frameSuffix),
        host.write_ascii (isAscii_watermarkName _ _ _)]

/-- The portable scheme behind accepted keys. -/
theorem keys_eq_some {identity : Identity (List β)} {names : KeyNames (List β)}
    (h : host.keys identity = some names) : ∃ portable : Identity Text,
      identity = portable.map host.write ∧ accepts portable = true ∧
      names.logical = (logicalName portable).map host.unit ∧
      names.value = (logicalName portable ++ frameSuffix).map host.unit ∧
      names.watermark = if portable.tracked then some ((watermarkName portable.cacheNamespace
        portable.keyType portable.id).map host.unit) else none := by
  cases hread : readIdentity host.read identity with
  | none => simp [keys, hread] at h
  | some portable =>
    cases haccepts : accepts portable with
    | false => simp [keys, hread, PortableKeys.keys, haccepts] at h
    | true =>
      simp only [keys, hread, PortableKeys.keys, haccepts, if_true, Option.bind_eq_bind,
        Option.bind_some, Option.pure_def, Option.some.injEq] at h
      subst h
      have hsplit : ∀ (b : Bool) (w : Text), (if b then some w else none).map (List.map host.unit) =
          if b then some (w.map host.unit) else none := by
        intro b w
        cases b <;> rfl
      exact ⟨portable, (host.map_write_of_read hread).symm, haccepts, rfl, rfl, hsplit _ _⟩

theorem mem_unit_iff {c : Char} {t : Text} (hc : c.toNat < 128) (ht : IsAscii t) :
    host.unit c ∈ t.map host.unit ↔ c ∈ t := by
  rw [← host.write_ascii ht]
  exact host.unit_mem_write hc

theorem braced_write_iff [DecidableEq β] {t : Text} :
    Braced (host.unit '{') (host.unit '}') (host.write t) ↔ isBraced t = true := by
  simp [Braced, isBraced, host.unit_mem_write]

/-- The hash tag of a hash-tagged name is its entity. -/
theorem hashTag_hashTagged [DecidableEq β] (n k i rest : Text) :
    hashTag (host.unit '{') (host.unit '}') ((hashTagged (entity n k i) ++ rest).map host.unit) =
      some ((entity n k i).map host.unit) := by
  have hclosing : host.unit '}' ∉ (entity n k i).map host.unit := by
    rw [host.mem_unit_iff (by decide) (isAscii_entity n k i)]
    exact brace_notMem_entity (Or.inr rfl)
  have hne : (entity n k i).map host.unit ≠ [] := by
    simpa using entity_ne_nil n k i
  simp only [hashTagged, List.cons_append, List.append_assoc, List.nil_append, List.map_cons,
    List.map_append]
  exact hashTag_of_braced hne hclosing

theorem opening_notMem_untracked {portable : Identity Text} (h : portable.tracked = false) :
    host.unit '{' ∉ (logicalName portable ++ frameSuffix).map host.unit := by
  rw [host.mem_unit_iff (by decide) ((isAscii_logicalName _).append isAscii_frameSuffix)]
  have hsuffix : '{' ∉ frameSuffix := by decide +kernel
  have hlogical := opening_notMem_logicalName h
  simp [hsuffix, hlogical]

/-- A builder that follows the portable scheme keeps the law. -/
theorem keyLaw [DecidableEq β] : KeyLaw (host.unit '{') (host.unit '}')
    (fun s => (host.read s).isSome = true) host.keys where
  accepts_iff := by
    intro identity
    rw [← readIdentity_isSome]
    cases hread : readIdentity host.read identity with
    | none => simp [keys, hread]
    | some portable =>
      obtain rfl := host.map_write_of_read hread
      have haccepts : (host.keys (portable.map host.write)).isSome = accepts portable := by
        cases h : accepts portable <;> simp [keys, hread, PortableKeys.keys, h]
      rw [haccepts]
      simp only [Identity.map, host.braced_write_iff, accepts]
      cases portable.tracked <;> simp
  logical_inj := by
    intro i j k l hi hj heq
    obtain ⟨p, rfl, -, hlogical, -⟩ := host.keys_eq_some hi
    obtain ⟨q, rfl, -, hlogical', -⟩ := host.keys_eq_some hj
    rw [hlogical, hlogical'] at heq
    rw [logicalName_inj (host.map_unit_inj (isAscii_logicalName p) (isAscii_logicalName q) heq)]
  value_inj := by
    intro i j k l hi hj heq
    obtain ⟨p, rfl, -, -, hvalue, -⟩ := host.keys_eq_some hi
    obtain ⟨q, rfl, -, -, hvalue', -⟩ := host.keys_eq_some hj
    rw [hvalue, hvalue'] at heq
    have hnames := host.map_unit_inj ((isAscii_logicalName p).append isAscii_frameSuffix)
      ((isAscii_logicalName q).append isAscii_frameSuffix) heq
    rw [logicalName_inj (List.append_cancel_right hnames)]
  value_ne_watermark := by
    intro i j k l w hi hj hw heq
    obtain ⟨p, rfl, -, -, hvalue, -⟩ := host.keys_eq_some hi
    obtain ⟨q, rfl, -, -, -, hwatermark⟩ := host.keys_eq_some hj
    rw [hwatermark] at hw
    cases htracked : q.tracked with
    | false => simp [htracked] at hw
    | true =>
      simp only [htracked, if_true, Option.some.injEq] at hw
      rw [hvalue, ← hw] at heq
      exact logicalName_frameSuffix_ne_watermarkName _ _ _ (host.map_unit_inj
        ((isAscii_logicalName p).append isAscii_frameSuffix) (isAscii_watermarkName _ _ _) heq)
  watermark_inj := by
    intro i j k l w hi hj hw hw'
    obtain ⟨p, rfl, -, -, -, hwatermark⟩ := host.keys_eq_some hi
    obtain ⟨q, rfl, -, -, -, hwatermark'⟩ := host.keys_eq_some hj
    rw [hwatermark] at hw
    rw [hwatermark'] at hw'
    cases hp : p.tracked with
    | false => simp [hp] at hw
    | true =>
      cases hq : q.tracked with
      | false => simp [hq] at hw'
      | true =>
        simp only [hp, if_true, Option.some.injEq] at hw
        simp only [hq, if_true, Option.some.injEq] at hw'
        obtain ⟨hn, hk, hid⟩ := watermarkName_inj (host.map_unit_inj
          (isAscii_watermarkName _ _ _) (isAscii_watermarkName _ _ _) (hw.trans hw'.symm))
        simp [Identity.map, hn, hk, hid]
  watermark_of_entity := by
    intro i j k l hi hj hti htj hn hk hid
    obtain ⟨p, rfl, -, -, -, hwatermark⟩ := host.keys_eq_some hi
    obtain ⟨q, rfl, -, -, -, hwatermark'⟩ := host.keys_eq_some hj
    have hinj : ∀ {t t' : Text}, host.write t = host.write t' → t = t' := by
      intro t t' h
      have hread := congrArg host.read h
      simpa [host.read_write] using hread
    rw [hwatermark, hwatermark', hinj hn, hinj hk, hinj hid, show p.tracked = true from hti,
      show q.tracked = true from htj]
  tracked_slot := by
    intro i k hi ht
    obtain ⟨p, rfl, -, -, hvalue, hwatermark⟩ := host.keys_eq_some hi
    have htracked : p.tracked = true := ht
    have htag := host.hashTag_hashTagged p.cacheNamespace p.keyType p.id
    refine ⟨_, (entity p.cacheNamespace p.keyType p.id).map host.unit, ?_, ?_, ?_, htag watermarkSuffix⟩
    · rw [hwatermark, htracked]
      rfl
    · simpa using entity_ne_nil _ _ _
    · rw [hvalue, logicalName, List.append_assoc, namePrefix, htracked]
      exact htag _
  untracked := by
    intro i k hi ht
    obtain ⟨p, rfl, -, -, hvalue, hwatermark⟩ := host.keys_eq_some hi
    have htracked : p.tracked = false := ht
    constructor
    · simp [hwatermark, htracked]
    · rw [hvalue]
      exact host.opening_notMem_untracked htracked

end Host

end DialCache.HostKeys
