import StakeSnapshot.Beacon.Endpoint
import StakeSnapshot.Proofs.Number.Digits
import StakeSnapshot.Store.Key
import Mathlib.Data.List.Nodup

/-!
# Readings and their keys in the store

The text behind a key starts with the kind of the reading, and for a batch it ends with the ids, from
which the batch can be read off. So no two readings of a snapshot have the same text, and if digests
do not confuse their texts (`Store.Separates`), they have keys of their own. Of any two readings, the
same text tells that they depend on the same parts, as the last parts have no colon in them
(`StoredReading.parts_eq_of_text_eq`); the places of readings may have any number of colons. With
batches whose keys can be read off, it tells that they are the same reading
(`StoredReading.text_and_key_inj`).
-/

namespace StakeSnapshot

/-- The keys of a batch can be read off the text that joins them. -/
theorem splitOn_intercalate_keys {batch : List String} (hbatch : batch ≠ [])
    (hcomma : ∀ key ∈ batch, ',' ∉ key.toList) :
    (String.intercalate "," batch).toList.splitOn ',' = batch.map String.toList := by
  rw [String.toList_intercalate]
  refine List.splitOn_intercalate ',' ?_ (by simpa using hbatch)
  intro chars hchars
  obtain ⟨key, hkey, rfl⟩ := List.mem_map.1 hchars
  exact hcomma key hkey

/-- A list can be split at the last place where an element stands. -/
theorem eq_of_append_cons_eq {α : Type} {x : α} {l l' m m' : List α} (hm : x ∉ m) (hm' : x ∉ m')
    (h : l ++ x :: m = l' ++ x :: m') : l = l' ∧ m = m' := by
  rcases List.append_eq_append_iff.1 h with ⟨k, rfl, hk⟩ | ⟨k, rfl, hk⟩
  · cases k with
    | nil => exact ⟨(List.append_nil l).symm, (List.cons.inj hk).2⟩
    | cons y k =>
      refine absurd ?_ hm
      rw [(List.cons.inj hk).2]
      simp
  · cases k with
    | nil => exact ⟨List.append_nil l', (List.cons.inj hk).2.symm⟩
    | cons y k =>
      refine absurd ?_ hm'
      rw [(List.cons.inj hk).2]
      simp

theorem numberText_injective : Function.Injective numberText :=
  fun _ _ h => Number.intText_injective (String.ofList_injective h)

theorem colon_notMem_numberText (n : Int) : ':' ∉ (numberText n).toList := by
  rw [numberText, String.toList_ofList]
  intro h
  rcases Number.mem_intText h with h | h
  · cases h
  · exact absurd h (by decide)

namespace Store

/-- Digests tell the given readings apart. -/
def Separates (readings : List StoredReading) : Prop :=
  ∀ p ∈ readings, ∀ q ∈ readings, p.key = q.key → p.text = q.text

theorem Separates.mono {readings fewer : List StoredReading} (h : Separates readings)
    (hsub : fewer ⊆ readings) : Separates fewer :=
  fun p hp q hq => h p (hsub hp) q (hsub hq)

namespace StoredReading

theorem text_eq (q : StoredReading) :
    q.text = q.kind ++ ":" ++ String.intercalate ":" (version :: q.parts) :=
  String.intercalate_cons_cons

/-- The kinds differ in their first characters. -/
theorem kind_eq_of_text_eq {p q : StoredReading} (h : p.text = q.text) : p.kind = q.kind := by
  have hhead := congrArg (fun s => s.toList.head?) h
  simp only [text_eq, String.toList_append, List.head?_append] at hhead
  cases p <;> cases q <;> first | rfl | simp [kind] at hhead

/-- A batch can be read off the text of its reading. -/
theorem batch_eq_of_text_eq {base : String} {slot : Int} {batch batch' : List String}
    (hbatch : batch ≠ []) (hbatch' : batch' ≠ [])
    (hcomma : ∀ key ∈ batch, ',' ∉ key.toList) (hcomma' : ∀ key ∈ batch', ',' ∉ key.toList)
    (h : (validators base slot batch).text = (validators base slot batch').text) :
    batch = batch' := by
  have hchars := congrArg String.toList h
  simp only [text, keyText, kind, parts, String.intercalate_cons_cons, String.intercalate_singleton,
    String.toList_append, List.append_assoc, List.append_right_inj] at hchars
  have hids := congrArg (List.splitOn ',') hchars
  rw [splitOn_intercalate_keys hbatch hcomma, splitOn_intercalate_keys hbatch' hcomma'] at hids
  exact List.map_injective_iff.2 (fun _ _ h => String.toList_inj.1 h) hids

/-- The keys of a batch have no colons in them, and the block of a list is an integer. -/
def Plain : StoredReading → Prop
  | block _ _ => True
  | validators _ _ batch => ∀ key ∈ batch, ':' ∉ key.toList
  | nodes _ height | minipools _ height => ∃ n, height = .int n

theorem colon_notMem_intercalate {batch : List String} (h : ∀ key ∈ batch, ':' ∉ key.toList) :
    ':' ∉ (String.intercalate "," batch).toList := by
  induction batch with
  | nil => exact List.not_mem_nil
  | cons key rest ih =>
    have hkey := h key List.mem_cons_self
    cases rest with
    | nil => rwa [String.intercalate_singleton]
    | cons next rest =>
      have hrest := ih fun k hk => h k (List.mem_cons_of_mem key hk)
      rw [String.intercalate_cons_cons, String.toList_append, String.toList_append, List.mem_append,
        List.mem_append, not_or, not_or]
      exact ⟨⟨hkey, by decide⟩, hrest⟩

/-- What stands before a colon and a last part, and the last part, can be read off. -/
theorem eq_of_ended {l m : List Char} {s t : String} (hs : ':' ∉ s.toList) (ht : ':' ∉ t.toList)
    (h : l ++ ':' :: s.toList = m ++ ':' :: t.toList) : l = m ∧ s = t := by
  obtain ⟨hl, hst⟩ := eq_of_append_cons_eq hs ht h
  exact ⟨hl, String.toList_inj.1 hst⟩

/-- The two parts of a reading can be read off the text that joins them. -/
theorem pair_eq_of_joined {s t s' t' : String} (ht : ':' ∉ t.toList) (ht' : ':' ∉ t'.toList)
    (h : (String.intercalate ":" [version, s, t]).toList =
      (String.intercalate ":" [version, s', t']).toList) : [s, t] = [s', t'] := by
  simp only [String.intercalate_cons_cons, String.intercalate_singleton, String.toList_append,
    List.append_assoc, List.append_right_inj] at h
  obtain ⟨hs, rfl⟩ := eq_of_ended ht ht' h
  rw [String.toList_inj.1 hs]

/-- The text tells the parts of a reading. -/
theorem parts_eq_of_text_eq {p q : StoredReading} (hp : p.Plain) (hq : q.Plain)
    (h : p.text = q.text) : p.parts = q.parts := by
  have hkind := kind_eq_of_text_eq h
  have hjoined : (String.intercalate ":" (version :: p.parts)).toList =
      (String.intercalate ":" (version :: q.parts)).toList := by
    have hchars := congrArg String.toList h
    simpa only [text_eq, hkind, String.toList_append, List.append_right_inj] using hchars
  cases p <;> cases q <;> try (simp [kind] at hkind; done)
  case block.block base slot base' slot' =>
    exact pair_eq_of_joined (colon_notMem_numberText slot) (colon_notMem_numberText slot') hjoined
  -- the last part of a batch is split off first, since the address before it may hold colons
  case validators.validators base slot batch base' slot' batch' =>
    simp only [parts, String.intercalate_cons_cons, String.intercalate_singleton,
      String.toList_append, List.append_assoc, List.append_right_inj] at hjoined
    have hsplit : base.toList ++ ':' :: (numberText slot).toList ++
        ':' :: (String.intercalate "," batch).toList =
        base'.toList ++ ':' :: (numberText slot').toList ++
          ':' :: (String.intercalate "," batch').toList := by
      rw [List.append_assoc, List.append_assoc]
      exact hjoined
    obtain ⟨hhead, hbatch⟩ :=
      eq_of_ended (colon_notMem_intercalate hp) (colon_notMem_intercalate hq) hsplit
    obtain ⟨hbase, hslot⟩ :=
      eq_of_ended (colon_notMem_numberText slot) (colon_notMem_numberText slot') hhead
    rw [parts, parts, String.toList_inj.1 hbase, hslot, hbatch]
  all_goals
    obtain ⟨n, rfl⟩ := hp
    obtain ⟨k, rfl⟩ := hq
    exact pair_eq_of_joined (colon_notMem_numberText n) (colon_notMem_numberText k) hjoined

/-- What a reading depends on can be read off its text. The block of a list is an integer. There are keys
in a batch, and the characters that stand between parts and between keys are in none of them. -/
def Legible : StoredReading → Prop
  | block _ _ => True
  | validators _ _ batch => batch ≠ [] ∧ ∀ key ∈ batch, ':' ∉ key.toList ∧ ',' ∉ key.toList
  | nodes _ height | minipools _ height => ∃ n, height = .int n

theorem Legible.plain {p : StoredReading} (h : p.Legible) : p.Plain := by
  cases p with
  | block base slot => trivial
  | validators base slot batch => exact fun key hkey => (h.2 key hkey).1
  | nodes storage height | minipools storage height => exact h

/-- Readings of one kind that depend on the same parts are the same. -/
theorem Legible.eq_of_parts_eq {p q : StoredReading} (hp : p.Legible) (hq : q.Legible)
    (hkind : p.kind = q.kind) (hparts : p.parts = q.parts) : p = q := by
  cases p <;> cases q <;> try (simp [kind] at hkind; done)
  case validators.validators base slot batch base' slot' batch' =>
    simp only [parts, List.cons.injEq, and_true] at hparts
    obtain ⟨rfl, hslot, hjoined⟩ := hparts
    have hids := congrArg (List.splitOn ',') (congrArg String.toList hjoined)
    rw [splitOn_intercalate_keys hp.1 fun key hkey => (hp.2 key hkey).2,
      splitOn_intercalate_keys hq.1 fun key hkey => (hq.2 key hkey).2] at hids
    rw [numberText_injective hslot,
      List.map_injective_iff.2 (fun _ _ h => String.toList_inj.1 h) hids]
  case block.block =>
    simp only [parts, List.cons.injEq, and_true] at hparts
    obtain ⟨rfl, hslot⟩ := hparts
    rw [numberText_injective hslot]
  all_goals
    obtain ⟨n, rfl⟩ := hp
    obtain ⟨k, rfl⟩ := hq
    simp only [parts, List.cons.injEq, and_true, valueText_int] at hparts
    obtain ⟨rfl, hnumber⟩ := hparts
    rw [numberText_injective hnumber]

theorem Legible.eq_of_text_eq {p q : StoredReading} (hp : p.Legible) (hq : q.Legible)
    (h : p.text = q.text) : p = q :=
  hp.eq_of_parts_eq hq (kind_eq_of_text_eq h) (parts_eq_of_text_eq hp.plain hq.plain h)

/-- The text of a reading identifies it among all readings, whatever their places are; and so does its
key, if digests do not confuse the two texts. -/
theorem text_and_key_inj {p q : StoredReading} (hp : p.Legible) (hq : q.Legible) :
    (p.text = q.text ↔ p = q) ∧ (Separates [p, q] → (p.key = q.key ↔ p = q)) := by
  refine ⟨⟨hp.eq_of_text_eq hq, congrArg text⟩, fun h => ⟨fun hkey => ?_, congrArg key⟩⟩
  have htext := h p (List.mem_cons_self ..) q (List.mem_cons_of_mem p (List.mem_cons_self ..)) hkey
  exact hp.eq_of_text_eq hq htext

/-- A reading whose place ends in a colon and a number. -/
def withPort : StoredReading := validators "http://b:1" 2 ["0xab", "0xcd"]

/-- A reading whose text has the digits of `withPort`, with one colon less. -/
def withoutPort : StoredReading := validators "http://b" 12 ["0xab", "0xcd"]

/-- The port of a place is not confused with the number after it. -/
theorem text_and_key_inj_port : withPort.Legible ∧ withoutPort.Legible ∧
    Separates [withPort, withoutPort] ∧
    withPort.text ≠ withoutPort.text ∧ withPort.key ≠ withoutPort.key := by
  have hp : withPort.Legible := ⟨by decide, by decide⟩
  have hq : withoutPort.Legible := ⟨by decide, by decide⟩
  have hsep : Separates [withPort, withoutPort] := by
    unfold Separates
    decide +kernel
  obtain ⟨htext, hkey⟩ := text_and_key_inj hp hq
  exact ⟨hp, hq, hsep, fun h => absurd (htext.1 h) (by decide),
    fun h => absurd ((hkey hsep).1 h) (by decide)⟩

/-- A key with a colon in it would confuse two readings. -/
example : (validators "b:1" 2 ["k"]).text = (validators "b" 1 ["2:k"]).text := by decide

end StoredReading

/-! ### The readings of a snapshot -/

/-- The readings that are stored for a snapshot, with the batches of its keys. -/
def snapshotReadings (base storage : String) (slot : Int) (block : Value) (bs : List (List String)) :
    List StoredReading :=
  .block base slot :: .nodes storage block :: .minipools storage block ::
    bs.map (.validators base slot)

variable {base storage : String} {slot : Int} {block : Value} {bs : List (List String)}

theorem mem_snapshotReadings {q : StoredReading}
    (h : q ∈ snapshotReadings base storage slot block bs) :
    q = .block base slot ∨ q = .nodes storage block ∨ q = .minipools storage block ∨
      ∃ batch ∈ bs, q = .validators base slot batch := by
  simp only [snapshotReadings, List.mem_cons, List.mem_map] at h
  rcases h with h | h | h | ⟨batch, hbatch, rfl⟩
  · exact .inl h
  · exact .inr (.inl h)
  · exact .inr (.inr (.inl h))
  · exact .inr (.inr (.inr ⟨batch, hbatch, rfl⟩))

theorem snapshotReadings_nil_subset :
    snapshotReadings base storage slot block [] ⊆ snapshotReadings base storage slot block bs := by
  intro q hq
  simp only [snapshotReadings, List.map_nil, List.mem_cons, List.not_mem_nil, or_false] at hq ⊢
  rcases hq with h | h | h
  · exact .inl h
  · exact .inr (.inl h)
  · exact .inr (.inr (.inl h))

/-- No two readings of a snapshot have the same text. -/
theorem eq_of_text_eq (hbs : ∀ batch ∈ bs, batch ≠ [] ∧ ∀ key ∈ batch, ',' ∉ key.toList)
    {p q : StoredReading} (hp : p ∈ snapshotReadings base storage slot block bs)
    (hq : q ∈ snapshotReadings base storage slot block bs) (h : p.text = q.text) : p = q := by
  have hkind := StoredReading.kind_eq_of_text_eq h
  rcases mem_snapshotReadings hp with rfl | rfl | rfl | ⟨batch, hbatch, rfl⟩ <;>
    rcases mem_snapshotReadings hq with rfl | rfl | rfl | ⟨batch', hbatch', rfl⟩ <;>
    first | rfl | simp [StoredReading.kind] at hkind
  -- two batches are left
  rw [StoredReading.batch_eq_of_text_eq (hbs batch hbatch).1 (hbs batch' hbatch').1
    (hbs batch hbatch).2 (hbs batch' hbatch').2 h]

/-- Readings whose texts are told apart have keys of their own. -/
theorem nodup_keys_snapshotReadings (hnodup : bs.Nodup)
    (hbs : ∀ batch ∈ bs, batch ≠ [] ∧ ∀ key ∈ batch, ',' ∉ key.toList)
    (h : Separates (snapshotReadings base storage slot block bs)) :
    ((snapshotReadings base storage slot block bs).map (·.key)).Nodup := by
  refine List.Nodup.map_on (fun p hp q hq hkey => eq_of_text_eq hbs hp hq (h p hp q hq hkey)) ?_
  have hbatches : (bs.map (StoredReading.validators base slot)).Nodup :=
    List.Nodup.map (fun _ _ heq => (StoredReading.validators.inj heq).2.2) hnodup
  simp [snapshotReadings, hbatches]

/-- Each reading is new to those that are made before it. -/
theorem new_of_nodup_keys (h : ((snapshotReadings base storage slot block bs).map (·.key)).Nodup) :
    (∀ p ∈ [StoredReading.block base slot], p.key ≠ (StoredReading.nodes storage block).key) ∧
    (∀ p ∈ [StoredReading.nodes storage block, .block base slot],
      p.key ≠ (StoredReading.minipools storage block).key) ∧
    ((bs.map (.validators base slot)).map StoredReading.key).Nodup ∧
    ∀ p ∈ [StoredReading.minipools storage block, .nodes storage block, .block base slot],
      ∀ q ∈ bs.map (StoredReading.validators base slot), p.key ≠ q.key := by
  simp only [snapshotReadings, List.map_cons, List.nodup_cons, List.mem_cons, not_or] at h
  obtain ⟨⟨hbn, hbm, hb⟩, ⟨hnm, hn⟩, hm, hbatches⟩ := h
  simp only [List.forall_mem_cons, List.not_mem_nil, false_imp_iff, implies_true, and_true]
  refine ⟨hbn, ⟨hnm, hbm⟩, hbatches, fun q hq heq => ?_, fun q hq heq => ?_, fun q hq heq => ?_⟩
  · exact hm (heq ▸ List.mem_map_of_mem hq)
  · exact hn (heq ▸ List.mem_map_of_mem hq)
  · exact hb (heq ▸ List.mem_map_of_mem hq)

end Store

namespace BeaconEndpoint

/-- Batches of distinct keys are distinct. -/
theorem nodup_batches {α : Type} {size : Nat} (hsize : 0 < size) {xs : List α} (h : xs.Nodup) :
    (batches size xs).Nodup := by
  rw [← flatten_batches size xs, List.nodup_flatten] at h
  refine List.Pairwise.imp_of_mem ?_ h.2
  rintro batch batch' hbatch - hdisjoint rfl
  obtain ⟨x, hx⟩ := List.exists_mem_of_length_pos (length_of_mem_batches hsize hbatch).1
  exact hdisjoint hx hx

/-- Batches are not empty and have no other keys. -/
theorem of_mem_batches {α : Type} {size : Nat} (hsize : 0 < size) {xs batch : List α}
    (h : batch ∈ batches size xs) : batch ≠ [] ∧ batch ⊆ xs := by
  refine ⟨List.ne_nil_of_length_pos (length_of_mem_batches hsize h).1, fun x hx => ?_⟩
  rw [← flatten_batches size xs]
  exact List.mem_flatten_of_mem h hx

end BeaconEndpoint

end StakeSnapshot
