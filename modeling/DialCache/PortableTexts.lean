import DialCache.PortableJson

/-!
# What a portable value is written as

The text is that of one tree, which the containers build from the trees of their parts. All four
sides are read off this tree: what the encoder writes, what `JSON.stringify` writes, that the
reader reads it, and which value that is.
-/

namespace DialCache.PortableJson

open DecimalText InsertionMaps JsonGrammar JsonReaders JsonTrees KeyAgreement PropertyOrder
  SemanticEquality SurrogateScans UnicodeText Utf8Repair Utf8Replacement

variable {v : Value}

theorem isAbsent_iff : Go.isAbsent v = true ↔ v = .absent := by
  cases v <;> simp [Go.isAbsent]

theorem encodeUtf8_decodeUtf8 {s : GoString} (h : WellFormed s) : encodeUtf8 (decodeUtf8 s) = s := by
  obtain ⟨cs, rfl⟩ := h
  rw [decodeUtf8_encodeUtf8]

theorem mapM_ok {ε α β : Type} {f : α → Except ε β} {g : α → β} {l : List α}
    (h : ∀ a ∈ l, f a = .ok (g a)) : l.mapM f = .ok (l.map g) := by
  induction l with
  | nil => rfl
  | cons a l ih =>
    rw [List.mapM_cons, h a List.mem_cons_self, ih fun b hb => h b (List.mem_cons_of_mem a hb)]
    rfl

theorem encodeUtf8_commaJoin (parts : List Text) :
    encodeUtf8 (commaJoin ',' parts) = commaJoin 0x2C (parts.map encodeUtf8) := by
  induction parts with
  | nil => rfl
  | cons part parts ih =>
    cases parts with
    | nil => rfl
    | cons next parts =>
      rw [commaJoin_cons, encodeUtf8_append, encodeUtf8_cons, ih]
      rfl

/-! ### The entries that have a value -/

section Present

variable {σ τ α β : Type}

theorem present_map (f : σ → τ) (g : α → β) (entries : List (σ × Option α)) :
    present (entries.map fun e => (f e.1, e.2.map g)) =
      (present entries).map fun e => (f e.1, g e.2) := by
  rw [present, present, List.filterMap_map, List.map_filterMap]
  congr 1
  funext e
  obtain ⟨name, value⟩ := e
  cases value <;> rfl

theorem mem_present {entries : List (σ × Option α)} {name : σ} {value : α} :
    (name, value) ∈ present entries ↔ (name, some value) ∈ entries := by
  rw [present, List.mem_filterMap]
  constructor
  · rintro ⟨⟨name', found⟩, hmem, h⟩
    obtain ⟨v, rfl, h⟩ := Option.map_eq_some_iff.mp h
    cases h
    exact hmem
  · exact fun hmem => ⟨_, hmem, rfl⟩

theorem present_sublist (entries : List (σ × Option α)) :
    ((present entries).map Prod.fst).Sublist (entries.map Prod.fst) := by
  induction entries with
  | nil => exact List.Sublist.refl _
  | cons e entries ih =>
    obtain ⟨name, _ | v⟩ := e
    · exact ih.cons _
    · exact ih.cons_cons _

variable [DecidableEq σ]

/-- The values may be changed before or after the members are put in order. -/
theorem ordered_map (index : σ → Option ℕ) (g : α → β) (members : List (σ × Option α)) :
    present (ownOrder index (assign (members.map fun e => (e.1, e.2.map g))).entries) =
      (present (ownOrder index (assign members).entries)).map fun e => (e.1, g e.2) := by
  have hassign := assign_map (f := id) (g := Option.map g) (@Function.injective_id σ) members
  have horder := ownOrder_map (f := id) (g := Option.map g) (fun name : σ => Eq.refl (index name))
    (assign members).entries
  simp only [id_eq] at hassign horder
  rw [hassign, horder]
  exact present_map id g _

theorem lookup_of_perm {entries entries' : List (σ × α)} (h : entries.Perm entries')
    (hnodup : (entries.map Prod.fst).Nodup) (name : σ) :
    lookup name entries = lookup name entries' := by
  refine Option.ext fun value => ?_
  rw [lookup_eq_some_iff_mem hnodup, lookup_eq_some_iff_mem ((h.map Prod.fst).nodup_iff.mp hnodup),
    h.mem_iff]

theorem lookup_present {entries : List (σ × Option α)} (h : (entries.map Prod.fst).Nodup) (name : σ) :
    lookup name (present entries) = (lookup name entries).join := by
  refine Option.ext fun value => ?_
  rw [lookup_eq_some_iff_mem ((present_sublist entries).nodup h), mem_present, Option.join_eq_some_iff,
    lookup_eq_some_iff_mem h]

end Present

/-! ### The tree of a member list -/

variable {depth : ℕ}

section Members

variable (tree : Value → Tree)

/-- What is written of a member. -/
def written (v : Value) : Option Tree := if Go.isAbsent v then none else some (tree v)

theorem written_absent : written tree .absent = none := rfl

theorem written_of_ne (h : v ≠ .absent) : written tree v = some (tree v) :=
  if_neg fun habsent => h (isAbsent_iff.mp habsent)

theorem written_eq_some {t : Tree} (h : written tree v = some t) : v ≠ .absent ∧ t = tree v := by
  rw [written] at h
  split at h
  · cases h
  next hv =>
    cases h
    exact ⟨fun habsent => hv (isAbsent_iff.mpr habsent), rfl⟩

/-- The members in the order of their names, with ECMAScript names. -/
def orderedMembers (members : List (GoString × Value)) : List (Text × Tree) :=
  present (ownOrder arrayIndexOf
    (assign (members.map fun m => (decodeUtf8 m.1, written tree m.2))).entries)

def objectTree (members : List (GoString × Value)) : Tree :=
  .object ((orderedMembers tree members).map fun m => (encodeUtf8 m.1, m.2))

variable {tree} {members : List (GoString × Value)}

theorem mem_orderedMembers {name : Text} {t : Tree} (h : (name, t) ∈ orderedMembers tree members) :
    ∃ m ∈ members, m.2 ≠ .absent ∧ t = tree m.2 := by
  rw [orderedMembers, mem_present, (perm_ownOrder _ _).mem_iff, ← InsertionMap.get_eq_some_iff,
    get_assign] at h
  obtain ⟨m, hm, heq⟩ := List.mem_map.mp (List.mem_reverse.mp (mem_of_lookup h))
  exact ⟨m, hm, written_eq_some tree (congrArg Prod.snd heq)⟩

/-- The same members with Go names. -/
theorem map_orderedMembers (names : ∀ m ∈ members, WellFormed m.1) :
    (orderedMembers tree members).map (fun m => (encodeUtf8 m.1, m.2)) =
      present (ownOrder Go.arrayIndex
        (assign (members.map fun m => (m.1, written tree m.2))).entries) := by
  have hnames : (members.map fun m => (m.1, written tree m.2)) =
      (members.map fun m => (decodeUtf8 m.1, written tree m.2)).map fun e => (encodeUtf8 e.1, id e.2) := by
    rw [List.map_map]
    refine List.map_congr_left fun m hm => ?_
    exact Prod.ext (encodeUtf8_decodeUtf8 (names m hm)).symm rfl
  have hid : (fun e : Text × Option Tree => (encodeUtf8 e.1, id e.2)) =
      fun e => (encodeUtf8 e.1, e.2.map id) := by
    funext e
    rw [Option.map_id]
  rw [hnames, assign_map DifferenceWalks.encodeUtf8_injective, ownOrder_map arrayIndex_encodeUtf8, hid,
    present_map]
  rfl

theorem text_objectTree : text (objectTree tree members) =
    0x7B :: (commaJoin 0x2C ((orderedMembers tree members).map fun m =>
      (literal (encodeUtf8 m.1)).bytes ++ 0x3A :: text m.2) ++ [0x7D]) := by
  rw [objectTree, text, List.map_map]
  rfl

theorem index_injective {α : Type} (object : List (GoString × α)) :
    ∀ a ∈ (assign object).entries, ∀ b ∈ (assign object).entries, ∀ n,
      Go.arrayIndex a.1 = some n → Go.arrayIndex b.1 = some n → a = b := by
  intro a ha b hb n hna hnb
  exact List.inj_on_of_nodup_map (assign object).nodup ha hb (arrayIndex_injective hna hnb)

/-- The encoder on a member list whose values are written. -/
theorem appendObject_eq {write : Value → Except String Bytes}
    (names : ∀ m ∈ members, WellFormed m.1)
    (h : ∀ m ∈ members, m.2 ≠ .absent → write m.2 = .ok (text (tree m.2))) :
    Go.appendObject (members.map fun m =>
      (m.1, if Go.isAbsent m.2 then none else some (write m.2))) =
        .ok (text (objectTree tree members)) := by
  have hmembers : (members.map fun m => (m.1, if Go.isAbsent m.2 then none else some (write m.2))) =
      (members.map fun m => (m.1, written tree m.2)).map fun e =>
        (e.1, e.2.map fun t => Except.ok (text t)) := by
    rw [List.map_map]
    refine List.map_congr_left fun m hm => Prod.ext rfl ?_
    by_cases habsent : m.2 = .absent
    · simp [habsent, written, Go.isAbsent]
    · have hnot : ¬ Go.isAbsent m.2 = true := fun hv => habsent (isAbsent_iff.mp hv)
      simp [written, hnot, h m hm habsent]
  have hparts : ((orderedMembers tree members).map
        fun m => (encodeUtf8 m.1, Except.ok (text m.2))).mapM
      (fun member : GoString × Except String Bytes => do
        let text ← member.2
        return Go.quoteJson member.1 ++ 0x3A :: text) =
      .ok ((orderedMembers tree members).map fun m =>
        (literal (encodeUtf8 m.1)).bytes ++ 0x3A :: text m.2) := by
    rw [List.mapM_map]
    refine mapM_ok fun m _ => ?_
    change Except.ok (Go.quoteJson (encodeUtf8 m.1) ++ 0x3A :: text m.2) = _
    rw [quoteJson_encodeUtf8]
  rw [Go.appendObject, uniqueMembers_eq, mergeSort_indexLess (index_injective _), hmembers, ordered_map,
    ← map_orderedMembers names, List.map_map, text_objectTree]
  change (do
    let parts ← ((orderedMembers tree members).map
        fun m : Text × Tree => (encodeUtf8 m.1, Except.ok (text m.2))).mapM
      (fun member : GoString × Except String Bytes => do
        let text ← member.2
        return Go.quoteJson member.1 ++ 0x3A :: text)
    return 0x7B :: (commaJoin 0x2C parts ++ [0x7D])) = _
  rw [hparts]
  rfl

/-- `JSON.stringify` on the object with the members. -/
theorem stringify_object {numberText : Float64 → Text}
    (h : ∀ m ∈ members, m.2 ≠ .absent →
      ∃ cs, stringify numberText (toJs m.2) = some cs ∧ encodeUtf8 cs = text (tree m.2)) :
    ∃ cs, stringify numberText
        (.object (assign (members.map fun m => (decodeUtf8 m.1, toJs m.2))).entries) = some cs ∧
      encodeUtf8 cs = text (objectTree tree members) := by
  have hmembers : ((assign (members.map fun m => (decodeUtf8 m.1, toJs m.2))).entries.map fun e =>
        (e.1, stringify numberText e.2)) =
      (assign ((members.map fun m => (decodeUtf8 m.1, written tree m.2)).map fun e =>
        (e.1, e.2.map fun t => decodeUtf8 (text t)))).entries := by
    have hassign := assign_map (f := id) (g := stringify numberText) (@Function.injective_id Text)
      (members.map fun m => (decodeUtf8 m.1, toJs m.2))
    simp only [id_eq] at hassign
    rw [← hassign, List.map_map, List.map_map]
    congr 2
    refine List.map_congr_left fun m hm => Prod.ext rfl ?_
    by_cases habsent : m.2 = .absent
    · simp [habsent, written, Go.isAbsent, toJs, stringify]
    · obtain ⟨cs, hcs, htext⟩ := h m hm habsent
      simp [written_of_ne tree habsent, hcs, ← htext, decodeUtf8_encodeUtf8]
  rw [stringify, hmembers, ordered_map, List.map_map, text_objectTree]
  refine ⟨_, rfl, ?_⟩
  rw [encodeUtf8_cons, encodeUtf8_append, encodeUtf8_commaJoin, List.map_map]
  have hparts : ∀ m ∈ orderedMembers tree members,
      encodeUtf8 (quoteJsonString m.1 ++ ':' :: decodeUtf8 (text m.2)) =
        (literal (encodeUtf8 m.1)).bytes ++ 0x3A :: text m.2 := by
    intro m hm
    obtain ⟨m', hm', hne, heq⟩ := mem_orderedMembers hm
    obtain ⟨cs, -, htext⟩ := h m' hm' hne
    rw [encodeUtf8_append, encodeUtf8_quoteJsonString, encodeUtf8_cons,
      encodeUtf8_decodeUtf8 ⟨cs, heq ▸ htext.symm⟩]
    rfl
  rw [← List.map_congr_left hparts]
  rfl

theorem readable_objectTree (h : ∀ m ∈ members, m.2 ≠ .absent → Readable depth (tree m.2)) :
    Readable (depth + 1) (objectTree tree members) := by
  refine .object fun m hm => ?_
  obtain ⟨m', hm', rfl⟩ := List.mem_map.mp hm
  obtain ⟨source, hsource, hne, heq⟩ := mem_orderedMembers hm'
  rw [heq]
  exact h source hsource hne

theorem lookup_objectTree (host : NumberHost) (names : ∀ m ∈ members, WellFormed m.1) :
    ∃ trees, Go.jsonNumbers host (objectTree tree members) = .object trees ∧
      ∀ name, lookup name trees =
        ((lookup name members.reverse).bind (written tree)).map (Go.jsonNumbers host) := by
  rw [objectTree, map_orderedMembers names, Go.jsonNumbers]
  refine ⟨_, rfl, fun name => ?_⟩
  have hnodup : ((ownOrder Go.arrayIndex (assign (members.map fun m =>
      (m.1, written tree m.2))).entries).map Prod.fst).Nodup :=
    ((perm_ownOrder _ _).map Prod.fst).nodup_iff.mpr (assign _).nodup
  have hlookup := lookup_present hnodup name
  have hkeys := (present_sublist _).nodup hnodup
  rw [lookup_ownOrder, ← List.map_reverse] at hlookup
  generalize present _ = parsed at hlookup hkeys ⊢
  have hmap := lookup_map (f := id) (g := written tree) Function.injective_id name members.reverse
  have hmap' := lookup_map (f := id) (g := Go.jsonNumbers host) Function.injective_id name parsed
  simp only [id_eq] at hmap hmap'
  rw [← lookup_of_perm (List.reverse_perm _).symm ?_, hmap', hlookup, hmap]
  · cases lookup name members.reverse <;> rfl
  · rw [List.map_map]
    exact hkeys

/-- The value that is read back. -/
theorem reads_objectTree {host : NumberHost} {value : Value} {source : List (GoString × Value)}
    (hsource : membersOf value = some source)
    (hlast : ∀ name, lookup name members.reverse = lookup name source.reverse)
    (names : ∀ m ∈ members, WellFormed m.1)
    (h : ∀ m ∈ members, m.2 ≠ .absent → Reads m.2 (Go.jsonNumbers host (tree m.2))) :
    Reads value (Go.jsonNumbers host (objectTree tree members)) := by
  obtain ⟨trees, htrees, hlookup⟩ := @lookup_objectTree tree members host names
  rw [htrees]
  refine .object hsource (fun name => ?_) fun name v t hv ht => ?_
  · rw [hlookup, hlast, Option.isSome_map, Option.isSome_iff_exists]
    constructor
    · rintro ⟨t, ht⟩
      obtain ⟨v, hv, hwritten⟩ := Option.bind_eq_some_iff.mp ht
      exact ⟨v, hv, (written_eq_some tree hwritten).1⟩
    · rintro ⟨v, hv, hne⟩
      exact ⟨tree v, by rw [hv, Option.bind_some, written_of_ne tree hne]⟩
  · rw [hlookup, hlast, hv] at ht
    obtain ⟨parsed, hparsed, rfl⟩ := Option.map_eq_some_iff.mp ht
    obtain ⟨hne, rfl⟩ := written_eq_some tree hparsed
    rw [← hlast] at hv
    exact h _ (List.mem_reverse.mp (mem_of_lookup hv)) hne

end Members

/-! ### Every value -/

variable {host : NumberHost} {numberText : Float64 → Text}

/-- The value is written as the text of the tree. -/
structure Written (host : NumberHost) (numberText : Float64 → Text) (depth : ℕ) (seen : List Visit)
    (v : Value) (tree : Tree) : Prop where
  go : Go.appendJson host seen v = .ok (text tree)
  js : ∃ cs, stringify numberText (toJs v) = some cs ∧ encodeUtf8 cs = text tree
  readable : Readable depth tree
  reads : Reads v (Go.jsonNumbers host tree)

variable {seen : List Visit}

theorem written_string {value : GoString} (h : WellFormed value) :
    Written host numberText depth seen (.string value) (.string value) where
  go := by
    rw [Go.appendJson, quoteJson_eq h, text]
    rfl
  js := by
    obtain ⟨cs, rfl⟩ := h
    rw [toJs, stringify, decodeUtf8_encodeUtf8, text]
    exact ⟨_, rfl, encodeUtf8_quoteJsonString cs⟩
  readable := .string value
  reads := by
    rw [Go.jsonNumbers]
    exact .string value

theorem written_number {x : Float64} (h : host.Faithful numberText x) :
    Written host numberText depth seen (.number x) (.number (Go.numberString host x)) where
  go := by
    obtain ⟨negative, magnitude, rfl⟩ := h.finite
    rw [Go.appendJson, text]
    rfl
  js := by
    rw [toJs, stringify, text]
    exact ⟨_, rfl, h.spelled.symm⟩
  readable := .number h.grammar
  reads := by
    rw [Go.jsonNumbers, h.reads]
    exact .number x

variable {tree : Value → Tree}

theorem written_slice {base : ℕ} {items : List Value} (fresh : ⟨.slice, base⟩ ∉ seen)
    (h : ∀ item ∈ items, item ≠ .absent → Written host numberText depth (⟨.slice, base⟩ :: seen)
      item (tree item)) :
    Written host numberText (depth + 1) seen (.slice false base items)
      (.array (items.map fun item => (written tree item).getD .null)) := by
  have hgo : ∀ item ∈ items, Go.appendJson host (⟨.slice, base⟩ :: seen) item =
      .ok (text ((written tree item).getD .null)) := by
    intro item hmem
    by_cases habsent : item = .absent
    · rw [habsent, Go.appendJson, written_absent, Option.getD_none, text]
      rfl
    · rw [written_of_ne tree habsent]
      exact (h item hmem habsent).go
  have hjs : ∀ item ∈ items,
      encodeUtf8 ((stringify numberText (toJs item)).getD ['n', 'u', 'l', 'l']) =
        text ((written tree item).getD .null) := by
    intro item hmem
    by_cases habsent : item = .absent
    · rw [habsent, toJs, stringify, written_absent, Option.getD_none, Option.getD_none, text]
      rfl
    · obtain ⟨cs, hcs, htext⟩ := (h item hmem habsent).js
      rw [written_of_ne tree habsent, hcs]
      exact htext
  have hparts : (items.map fun item => Go.appendJson host (⟨.slice, base⟩ :: seen) item).mapM id =
      .ok (items.map fun item => text ((written tree item).getD .null)) := by
    rw [List.mapM_map]
    exact mapM_ok hgo
  constructor
  · rw [Go.appendJson, if_neg Bool.false_ne_true, if_neg fresh, hparts, text, List.map_map]
    rfl
  · rw [toJs, stringify, text]
    refine ⟨_, rfl, ?_⟩
    rw [encodeUtf8_cons, encodeUtf8_append, encodeUtf8_commaJoin, List.map_map, List.map_map,
      List.map_map]
    simp only [Function.comp_def]
    rw [List.map_congr_left hjs]
    rfl
  · refine .array fun t ht => ?_
    obtain ⟨item, hmem, rfl⟩ := List.mem_map.mp ht
    by_cases habsent : item = .absent
    · rw [habsent, written_absent]
      exact .null
    · rw [written_of_ne tree habsent]
      exact (h item hmem habsent).readable
  · rw [Go.jsonNumbers, List.map_map]
    refine .slice (List.length_map _).symm fun pair hpair => ?_
    rw [← List.map_prod_left_eq_zip, List.mem_map] at hpair
    obtain ⟨item, hmem, rfl⟩ := hpair
    by_cases habsent : item = .absent
    · rw [habsent, Function.comp_apply, written_absent, Option.getD_none, Go.jsonNumbers]
      exact .absent
    · rw [Function.comp_apply, written_of_ne tree habsent]
      exact (h item hmem habsent).reads

theorem written_object {base : ℕ} {members : List (GoString × Value)}
    (fresh : ⟨.slice, base⟩ ∉ seen) (names : ∀ m ∈ members, WellFormed m.1)
    (h : ∀ m ∈ members, m.2 ≠ .absent → Written host numberText depth (⟨.slice, base⟩ :: seen) m.2
      (tree m.2)) :
    Written host numberText (depth + 1) seen (.object base members) (objectTree tree members) where
  go := by
    rw [Go.appendJson, if_neg fresh]
    exact appendObject_eq names fun m hm hne => (h m hm hne).go
  js := by
    rw [toJs]
    exact stringify_object fun m hm hne => (h m hm hne).js
  readable := readable_objectTree fun m hm hne => (h m hm hne).readable
  reads := reads_objectTree rfl (fun _ => rfl) names fun m hm hne => (h m hm hne).reads

theorem written_map {address : ℕ} {members : List (GoString × Value)}
    (fresh : ⟨.map, address⟩ ∉ seen) (distinct : (members.map Prod.fst).Nodup)
    (names : ∀ m ∈ members, WellFormed m.1)
    (h : ∀ m ∈ members, m.2 ≠ .absent → Written host numberText depth (⟨.map, address⟩ :: seen) m.2
      (tree m.2)) :
    Written host numberText (depth + 1) seen (.map address members)
      (objectTree tree (members.mergeSort fun a b => !Go.utf16Less b.1 a.1)) := by
  have hperm := List.mergeSort_perm members fun a b => !Go.utf16Less b.1 a.1
  have hnames : ∀ m ∈ members.mergeSort (fun a b => !Go.utf16Less b.1 a.1), WellFormed m.1 :=
    fun m hm => names m (hperm.mem_iff.mp hm)
  have hall : ∀ m ∈ members.mergeSort (fun a b => !Go.utf16Less b.1 a.1), m.2 ≠ .absent →
      Written host numberText depth (⟨.map, address⟩ :: seen) m.2 (tree m.2) :=
    fun m hm => h m (hperm.mem_iff.mp hm)
  constructor
  · rw [Go.appendJson, if_neg fresh, ← appendObject_eq hnames fun m hm hne => (hall m hm hne).go,
      List.map_mergeSort]
    exact fun _ _ _ _ => rfl
  · rw [toJs]
    have hsort : (members.map fun m => (decodeUtf8 m.1, toJs m.2)).mergeSort
          (fun a b => unitKey a.1 ≤ unitKey b.1) =
        (members.mergeSort fun a b => !Go.utf16Less b.1 a.1).map fun m =>
          (decodeUtf8 m.1, toJs m.2) := by
      rw [List.map_mergeSort]
      intro a _ b _
      exact DifferenceWalks.Go.le_eq a.1 b.1
    rw [hsort]
    exact stringify_object fun m hm hne => (hall m hm hne).js
  · exact readable_objectTree fun m hm hne => (hall m hm hne).readable
  · refine reads_objectTree rfl (fun name => ?_) hnames fun m hm hne => (hall m hm hne).reads
    have hreversed := ((List.reverse_perm _).trans hperm).trans (List.reverse_perm members).symm
    refine lookup_of_perm hreversed ?_ name
    rw [List.map_reverse]
    exact List.nodup_reverse.mpr ((hperm.map Prod.fst).nodup_iff.mpr distinct)

/-- A tree for each part, from one for each part that is there. -/
theorem exists_trees {P : Value → Prop} {Q : Value → Tree → Prop} (h : ∀ v, P v → ∃ t, Q v t) :
    ∃ tree : Value → Tree, ∀ v, P v → Q v (tree v) := by
  have hall : ∀ v, ∃ t, P v → Q v t := by
    intro v
    by_cases hv : P v
    · obtain ⟨t, ht⟩ := h v hv
      exact ⟨t, fun _ => ht⟩
    · exact ⟨.null, fun hv' => absurd hv' hv⟩
  exact ⟨fun v => (hall v).choose, fun v => (hall v).choose_spec⟩

theorem exists_written (h : Portable host numberText depth seen v) :
    ∃ tree, Written host numberText depth seen v tree := by
  induction h with
  | nil =>
    refine ⟨.null, ?_, ?_, .null, ?_⟩
    · rw [Go.appendJson, text]
      rfl
    · rw [toJs, stringify, text]
      exact ⟨_, rfl, rfl⟩
    · rw [Go.jsonNumbers]
      exact .nil
  | bool value =>
    refine ⟨.bool value, ?_, ?_, .bool value, ?_⟩
    · rw [Go.appendJson, text]
      rfl
    · rw [toJs, text]
      cases value <;> exact ⟨_, stringify.eq_def _ _, rfl⟩
    · rw [Go.jsonNumbers]
      exact .bool value
  | number h => exact ⟨_, written_number h⟩
  | string h => exact ⟨_, written_string h⟩
  | @slice depth base seen items fresh _ ih =>
    obtain ⟨tree, htree⟩ := exists_trees (P := fun v => v ∈ items ∧ v ≠ .absent)
      fun v hv => ih v hv.1 hv.2
    exact ⟨_, written_slice fresh fun item hmem hne => htree item ⟨hmem, hne⟩⟩
  | @map depth address seen members fresh distinct names _ ih =>
    obtain ⟨tree, htree⟩ := exists_trees (P := fun v => (∃ m ∈ members, m.2 = v) ∧ v ≠ .absent) <| by
      rintro v ⟨⟨m, hm, rfl⟩, hne⟩
      exact ih m hm hne
    exact ⟨_, written_map fresh distinct names fun m hm hne => htree m.2 ⟨⟨m, hm, rfl⟩, hne⟩⟩
  | @object depth base seen members fresh names _ ih =>
    obtain ⟨tree, htree⟩ := exists_trees (P := fun v => (∃ m ∈ members, m.2 = v) ∧ v ≠ .absent) <| by
      rintro v ⟨⟨m, hm, rfl⟩, hne⟩
      exact ih m hm hne
    exact ⟨_, written_object fresh names fun m hm hne => htree m.2 ⟨⟨m, hm, rfl⟩, hne⟩⟩

/-! ### Reading the text back -/

theorem codeUnit_element {b : UInt8} {u : ℕ} (h : (element b).codeUnit = some u) : u < 0x20 := by
  rw [element] at h
  split at h
  · cases h
  split at h
  next hb =>
    rw [Element.codeUnit, value_ofNat, value_ofNat, value_ofNat, Option.some.injEq] at h
    omega
  · cases h

section Scan

variable {scan : Bool → Bytes → Except SurrogateScans.Fault (Option String)} (hscan : Scans scan)

include hscan

theorem scan_outside {bytes : Bytes} (h : ∀ b ∈ bytes, Outside b) (rest : Bytes) :
    scan false (bytes ++ rest) = scan false rest := by
  induction bytes with
  | nil => rfl
  | cons b bytes ih =>
    rw [List.cons_append, hscan.outside (h b List.mem_cons_self),
      ih fun c hc => h c (List.mem_cons_of_mem b hc)]

theorem scan_literal (s rest : Bytes) :
    scan false ((literal s).bytes ++ rest) = scan false rest := by
  rw [bytes_literal, hscan.opens]
  induction s with
  | nil => exact hscan.closes rest
  | cons b s ih =>
    have hbytes : (literal (b :: s)).inner = (element b).bytes ++ (literal s).inner :=
      List.flatMap_cons
    rw [hbytes, List.append_assoc, hscan.passes, ih]
    · rintro ⟨u, hu, hge, -⟩
      have := codeUnit_element hu
      omega
    · rintro ⟨u, hu, hge, -⟩
      have := codeUnit_element hu
      omega

theorem scan_commaJoin {parts : List Bytes}
    (h : ∀ part ∈ parts, ∀ rest, scan false (part ++ rest) = scan false rest) (rest : Bytes) :
    scan false (commaJoin 0x2C parts ++ rest) = scan false rest := by
  induction parts with
  | nil => rfl
  | cons part parts ih =>
    have hrest := ih fun other hother => h other (List.mem_cons_of_mem part hother)
    cases parts with
    | nil => exact h part List.mem_cons_self rest
    | cons next parts =>
      rw [commaJoin_cons, List.append_assoc, h part List.mem_cons_self, List.cons_append,
        hscan.outside ⟨by decide, by decide⟩, hrest]

/-- No string of a written text has an isolated surrogate. -/
theorem scan_text {tree : Tree} (h : Readable depth tree) (rest : Bytes) :
    scan false (text tree ++ rest) = scan false rest := by
  induction h generalizing rest with
  | null =>
    rw [text]
    exact scan_outside hscan (outside_word (by decide)) rest
  | bool value =>
    rw [text]
    exact scan_outside hscan (outside_word (by cases value <;> decide)) rest
  | number h =>
    rw [text]
    exact scan_outside hscan h.outside rest
  | string value =>
    rw [text]
    exact scan_literal hscan value rest
  | array _ ih =>
    rw [text, List.cons_append, hscan.outside ⟨by decide, by decide⟩, List.append_assoc,
      scan_commaJoin hscan, List.singleton_append, hscan.outside ⟨by decide, by decide⟩]
    intro part hpart
    obtain ⟨item, hitem, rfl⟩ := List.mem_map.mp hpart
    exact ih item hitem
  | object _ ih =>
    rw [text, List.cons_append, hscan.outside ⟨by decide, by decide⟩, List.append_assoc,
      scan_commaJoin hscan, List.singleton_append, hscan.outside ⟨by decide, by decide⟩]
    intro part hpart rest'
    obtain ⟨m, hm, rfl⟩ := List.mem_map.mp hpart
    rw [List.append_assoc, scan_literal hscan, List.cons_append,
      hscan.outside ⟨by decide, by decide⟩, ih m hm]

end Scan

theorem stops_nil : Stops [] := by
  intro b hb
  cases hb

theorem text_ne_sentinel {tree : Tree} (h : Readable depth tree) :
    text tree ≠ Go.jsonUndefinedSentinel := by
  intro heq
  have hread := readValue_text h stops_nil
  rw [List.append_nil, heq] at hread
  have hhead : Go.jsonUndefinedSentinel = 0x5F :: Go.jsonUndefinedSentinel.tail := by decide +kernel
  rw [hhead, readValue.eq_def] at hread
  cases hread

theorem decode_text {tree : Tree} (h : Readable Go.maxNestingDepth tree) (hwell : WellFormed (text tree)) :
    Go.decode host (text tree) = .ok (.value (Go.jsonNumbers host tree)) := by
  have hread := readValue_text h stops_nil
  have hscan := scan_text scans_validateFrom h []
  rw [List.append_nil] at hread hscan
  have hvalid : validateJsonScalarStrings (text tree) = .ok none := hscan.trans scans_validateFrom.nil
  rw [Go.decode, replacementUtf8_of_wellFormed hwell, if_neg (text_ne_sentinel h), hread]
  dsimp only
  rw [if_neg fun hrest => hrest rfl, hvalid]

/-- A portable value is written as `JSON.stringify` writes it, and read back. -/
theorem portable_json {v : Value} (h : Portable host numberText 10000 [] v) :
    ∃ text tree, Go.encode host v = .ok text ∧
      (stringify numberText (toJs v)).map encodeUtf8 = some text ∧
      Go.decode host text = .ok (.value tree) ∧ Reads v tree := by
  obtain ⟨tree, hwritten⟩ := exists_written h
  obtain ⟨cs, hcs, htext⟩ := hwritten.js
  have hpresent : ¬ Go.isAbsent v = true := by
    intro habsent
    rw [isAbsent_iff.mp habsent] at h
    cases h
  refine ⟨text tree, Go.jsonNumbers host tree, ?_, ?_, decode_text hwritten.readable ⟨cs, htext.symm⟩,
    hwritten.reads⟩
  · rw [Go.encode, if_neg hpresent, hwritten.go]
  · rw [hcs, Option.map_some, htext]

/-- A host that knows zero. -/
def zeroHost : NumberHost := ⟨fun _ => [0x30], fun _ => .finite false 0⟩

/-- `{"b": [undefined, true], "10": null, "2": "é", "10": -0}`. -/
def repeated : Value :=
  .object 1 [([0x62], .slice false 2 [.absent, .bool true]), ([0x31, 0x30], .nil),
    ([0x32], .string [0xC3, 0xA9]), ([0x31, 0x30], .number (.finite true 0))]

theorem faithful_zero : zeroHost.Faithful (fun _ => ['0']) (.finite true 0) where
  finite := ⟨true, 0, rfl⟩
  spelled := rfl
  grammar := by
    have hdigits : IsDigits [0x30] := by
      refine ⟨List.cons_ne_nil _ _, fun b hb => ?_⟩
      rw [List.mem_singleton.mp hb]
      decide
    exact ⟨[], [0x30], [], [], rfl, .inl rfl, ⟨hdigits, .inl rfl⟩, .inl rfl, .inl rfl⟩
  reads := rfl

theorem portable_repeated : Portable zeroHost (fun _ => ['0']) 10000 [] repeated := by
  refine .object List.not_mem_nil ?_ ?_
  · simp only [List.forall_mem_cons]
    exact ⟨⟨['b'], rfl⟩, ⟨['1', '0'], rfl⟩, ⟨['2'], rfl⟩, ⟨['1', '0'], rfl⟩, List.forall_mem_nil _⟩
  · simp only [List.forall_mem_cons]
    refine ⟨fun _ => .slice (by decide) ?_, fun _ => .nil, fun _ => .string ⟨['é'], rfl⟩,
      fun _ => .number faithful_zero, List.forall_mem_nil _⟩
    simp only [List.forall_mem_cons]
    exact ⟨fun h => absurd rfl h, fun _ => .bool true, List.forall_mem_nil _⟩

theorem portable_json_repeated : Portable zeroHost (fun _ => ['0']) 10000 [] repeated ∧
    ∃ text tree, Go.encode zeroHost repeated = .ok text ∧
      (stringify (fun _ => ['0']) (toJs repeated)).map encodeUtf8 = some text ∧
      Go.decode zeroHost text = .ok (.value tree) ∧ Reads repeated tree :=
  ⟨portable_repeated, portable_json portable_repeated⟩

end DialCache.PortableJson
