import StakeSnapshot.Proofs.Beacon.Endpoint
import StakeSnapshot.Proofs.Pubkey
import StakeSnapshot.Proofs.Store.Readings

/-!
# The entries that a beacon node holds

A node holds entries of validators, each under a key that it spells in any case of letters
(`BeaconEntry`), and answers a request with those whose keys are asked for (`AnswersFrom`). The main
statement is `find?_validators_iff`: an assigned key that is asked for leads to the validator of the
entry with that key, and to nothing if the node holds none.
-/

namespace StakeSnapshot

/-- The parts of an entry from which a validator has its key and its epochs. -/
theorem Validator.parts_of_ofEntry {w : Value} {v : Validator} (h : ofEntry w = .ok v) :
    ∃ part, w.field "validator" = .ok part ∧
      (∃ spelled, part.field "pubkey" = .ok spelled ∧ spelled.toPubkey = .ok v.pubkey) ∧
      (∃ start, part.field "activation_epoch" = .ok start ∧
        start.toInteger farFutureEpoch = .ok v.activationEpoch) ∧
      ∃ last, part.field "exit_epoch" = .ok last ∧
        last.toInteger farFutureEpoch = .ok v.exitEpoch := by
  obtain ⟨part, hpart, h₁⟩ := Except.ok_of_bind h
  obtain ⟨spelled, hspelled, h₂⟩ := Except.ok_of_bind h₁
  obtain ⟨pubkey, hpubkey, h₃⟩ := Except.ok_of_bind h₂
  obtain ⟨_, -, h₄⟩ := Except.ok_of_bind h₃
  obtain ⟨_, -, h₅⟩ := Except.ok_of_bind h₄
  obtain ⟨_, -, h₆⟩ := Except.ok_of_bind h₅
  obtain ⟨_, -, h₇⟩ := Except.ok_of_bind h₆
  obtain ⟨_, -, h₈⟩ := Except.ok_of_bind h₇
  obtain ⟨_, -, h₉⟩ := Except.ok_of_bind h₈
  obtain ⟨_, -, h₁₀⟩ := Except.ok_of_bind h₉
  obtain ⟨_, -, h₁₁⟩ := Except.ok_of_bind h₁₀
  obtain ⟨_, -, h₁₂⟩ := Except.ok_of_bind h₁₁
  obtain ⟨start, hstart, h₁₃⟩ := Except.ok_of_bind h₁₂
  obtain ⟨activation, hactivation, h₁₄⟩ := Except.ok_of_bind h₁₃
  obtain ⟨last, hlast, h₁₅⟩ := Except.ok_of_bind h₁₄
  obtain ⟨exit, hexit, h₁₆⟩ := Except.ok_of_bind h₁₅
  obtain ⟨_, -, h₁₇⟩ := Except.ok_of_bind h₁₆
  obtain ⟨_, -, h₁₈⟩ := Except.ok_of_bind h₁₇
  cases h₁₈
  exact ⟨part, hpart, ⟨spelled, hspelled, hpubkey⟩, ⟨start, hstart, hactivation⟩, last, hlast,
    hexit⟩

/-- The entry of a validator in the list of a beacon node. -/
structure BeaconEntry where
  value : Value
  key : List UInt8
  spelling : String
  length_key : key.length = pubkeyLength
  spelled : spelling.toList.map Char.toLower = keyChars key
  pubkey_eq : (do (← value.field "validator").field "pubkey") = Except.ok (.text spelling)

namespace BeaconEntry

/-- An epoch of an entry; null is an epoch that has not been scheduled. -/
def epoch (b : BeaconEntry) (name : String) : Except Fault Int := do
  (← (← b.value.field "validator").field name).toInteger farFutureEpoch

/-- The validator of an entry is active during an epoch. -/
def ActiveIn (b : BeaconEntry) (epoch : Int) : Prop :=
  ∃ activation exit, b.epoch "activation_epoch" = .ok activation ∧ b.epoch "exit_epoch" = .ok exit ∧
    activation ≤ epoch ∧ epoch < exit

/-- What a validator has from its entry. -/
theorem ofEntry_ok {b : BeaconEntry} {v : Validator} (h : Validator.ofEntry b.value = .ok v) :
    v.pubkey = pubkeyOf b.key ∧ b.epoch "activation_epoch" = .ok v.activationEpoch ∧
      b.epoch "exit_epoch" = .ok v.exitEpoch := by
  obtain ⟨part, hpart, ⟨spelled, hspelled, hpubkey⟩, ⟨start, hstart, hactivation⟩, last, hlast,
    hexit⟩ := Validator.parts_of_ofEntry h
  have hfield := b.pubkey_eq
  simp only [hpart, hspelled, bind, Except.bind, Except.ok.injEq] at hfield
  rw [hfield, toPubkey_spelled b.spelled b.length_key] at hpubkey
  refine ⟨(Except.ok.inj hpubkey).symm, ?_, ?_⟩
  · simp only [epoch, hpart, hstart, bind, Except.bind, hactivation]
  · simp only [epoch, hpart, hlast, bind, Except.bind, hexit]

end BeaconEntry

/-! ### Answers to requests -/

/-- The ids that a request asks for, as they stand in its text. -/
def Request.ids (r : Request) : List (List Char) :=
  match r.keys with
  | none => []
  | some keys => (String.intercalate "," keys).toList.splitOn ','

/-- The lower-case spelling of an entry's key is among the ids that are asked for. -/
def BeaconEntry.Requested (b : BeaconEntry) (r : Request) : Prop :=
  Text.lower b.spelling.toList ∈ r.ids

instance (b : BeaconEntry) (r : Request) : Decidable (b.Requested r) :=
  inferInstanceAs (Decidable (Text.lower b.spelling.toList ∈ r.ids))

namespace BeaconEndpoint

/-- Where the node answers a request for validators of a slot, it answers with exactly those of the
entries it holds that are asked for. -/
def AnswersFrom (out : Outside) (e : BeaconEndpoint) (slot : Int) (held : List BeaconEntry) : Prop :=
  ∀ batch data, Answered out (e.batchRequest slot batch) data →
    ∃ entries, data = .list entries ∧
      ∀ w, w ∈ entries ↔ ∃ b ∈ held, b.value = w ∧ b.Requested (e.batchRequest slot batch)

/-- Keys that are assigned, as they are asked for. -/
def Assigned (keys : List String) : Prop :=
  ∀ key ∈ keys, ∃ octets, ¬ octets.all (· == 0) ∧ key = pubkeyOf octets

variable {out : Outside} {e : BeaconEndpoint} {slot : Int} {held : List BeaconEntry}
  {keys batch : List String}

theorem Assigned.comma_notMem (h : Assigned keys) : ∀ key ∈ keys, ',' ∉ key.toList := by
  intro key hkey
  obtain ⟨octets, hoctets, rfl⟩ := h key hkey
  rw [pubkeyOf, if_neg hoctets, String.toList_ofList]
  intro hcomma
  exact absurd (plain_of_mem_keyChars hcomma) (by decide)

/-- Exactly those entries are asked for whose keys are in the batch. -/
theorem requested_iff (hkeys : Assigned keys) (hbatch : batch ≠ []) (hsub : batch ⊆ keys)
    {b : BeaconEntry} :
    b.Requested (e.batchRequest slot batch) ↔
      ¬ b.key.all (· == 0) ∧ pubkeyOf b.key ∈ batch := by
  have hids : (e.batchRequest slot batch).ids = batch.map String.toList :=
    splitOn_intercalate_keys hbatch fun key hkey => hkeys.comma_notMem key (hsub hkey)
  rw [BeaconEntry.Requested, hids, lower_spelled b.spelled, List.mem_map]
  constructor
  · rintro ⟨key, hkey, hchars⟩
    obtain ⟨octets, hoctets, rfl⟩ := hkeys key (hsub hkey)
    rw [pubkeyOf, if_neg hoctets, String.toList_ofList] at hchars
    rw [← keyChars_injective hchars]
    exact ⟨hoctets, hkey⟩
  · rintro ⟨hzero, hmem⟩
    refine ⟨_, hmem, ?_⟩
    rw [pubkeyOf, if_neg hzero, String.toList_ofList]

/-! ### Validators by key -/

theorem exists_of_mem_right {α β : Type} {R : α → β → Prop} {xs : List α} {ys : List β}
    (h : List.Forall₂ R xs ys) {y : β} (hy : y ∈ ys) : ∃ x ∈ xs, R x y := by
  induction h with
  | nil => cases hy
  | @cons x y' xs ys hxy h ih =>
    rcases List.mem_cons.1 hy with rfl | hy
    · exact ⟨x, List.mem_cons_self, hxy⟩
    · obtain ⟨x', hx', hr⟩ := ih hy
      exact ⟨x', List.mem_cons_of_mem _ hx', hr⟩

theorem exists_of_mem_left {α β : Type} {R : α → β → Prop} {xs : List α} {ys : List β}
    (h : List.Forall₂ R xs ys) {x : α} (hx : x ∈ xs) : ∃ y ∈ ys, R x y :=
  exists_of_mem_right h.flip hx

section
variable (hanswers : AnswersFrom out e slot held) (hkeys : Assigned keys)
include hanswers hkeys

theorem batchEntries_iff (hbatch : batch ≠ []) (hsub : batch ⊆ keys) {entries : List Value}
    (h : BatchEntries out e slot batch entries) {w : Value} :
    w ∈ entries ↔
      ∃ b ∈ held, b.value = w ∧ ¬ b.key.all (· == 0) ∧ pubkeyOf b.key ∈ batch := by
  obtain ⟨data, hdata, hitems⟩ := h
  obtain ⟨found, rfl, hfound⟩ := hanswers batch data hdata
  cases hitems
  simp only [hfound, requested_iff hkeys hbatch hsub]

/-- All batches together are answered with the entries that are asked for. -/
theorem mem_flatten_answers_iff {answers : List (List Value)}
    (h : List.Forall₂ (BatchEntries out e slot) (batches e.batchSize (Table.distinct keys)) answers)
    {w : Value} :
    w ∈ answers.flatten ↔
      ∃ b ∈ held, b.value = w ∧ ¬ b.key.all (· == 0) ∧ pubkeyOf b.key ∈ keys := by
  have hbatch : ∀ {batch : List String}, batch ∈ batches e.batchSize (Table.distinct keys) →
      batch ≠ [] ∧ batch ⊆ keys := by
    intro batch hmem
    obtain ⟨hne, hsub⟩ := of_mem_batches e.positive hmem
    exact ⟨hne, fun key hkey => Table.mem_distinct.1 (hsub hkey)⟩
  rw [List.mem_flatten]
  constructor
  · rintro ⟨entries, hentries, hw⟩
    obtain ⟨batch, hmem, hanswer⟩ := exists_of_mem_right h hentries
    obtain ⟨hne, hsub⟩ := hbatch hmem
    obtain ⟨b, hb, hvalue, hzero, hkey⟩ := (batchEntries_iff hanswers hkeys hne hsub hanswer).1 hw
    exact ⟨b, hb, hvalue, hzero, hsub hkey⟩
  · rintro ⟨b, hb, hvalue, hzero, hkey⟩
    rw [← Table.mem_distinct, ← flatten_batches e.batchSize (Table.distinct keys),
      List.mem_flatten] at hkey
    obtain ⟨batch, hmem, hkey⟩ := hkey
    obtain ⟨entries, hentries, hanswer⟩ := exists_of_mem_left h hmem
    obtain ⟨hne, hsub⟩ := hbatch hmem
    exact ⟨entries, hentries,
      (batchEntries_iff hanswers hkeys hne hsub hanswer).2 ⟨b, hb, hvalue, hzero, hkey⟩⟩

/-- A key leads to the validator of the entry with that key, if the key is asked for and the node
holds an entry. -/
theorem find?_validators_iff (hheld : (held.map (·.key)).Nodup) {answers : List (List Value)}
    {vs : List Validator}
    (h : List.Forall₂ (BatchEntries out e slot) (batches e.batchSize (Table.distinct keys)) answers)
    (hvs : List.Forall₂ (fun entry v => Validator.ofEntry entry = .ok v) answers.flatten vs)
    {key : String} {v : Validator} :
    Table.find? (Table.ofRows (validatorRows vs)) key = some v ↔
      key ∈ keys ∧ ∃ b ∈ held, pubkeyOf b.key = key ∧ Validator.ofEntry b.value = .ok v := by
  have hrows : ∀ v, (key, v) ∈ validatorRows vs ↔
      key ∈ keys ∧ ∃ b ∈ held, pubkeyOf b.key = key ∧ Validator.ofEntry b.value = .ok v := by
    intro v
    simp only [validatorRows, List.mem_map, Prod.mk.injEq]
    constructor
    · rintro ⟨v, hv, rfl, rfl⟩
      obtain ⟨w, hw, hparse⟩ := exists_of_mem_right hvs hv
      obtain ⟨b, hb, rfl, -, hkey⟩ := (mem_flatten_answers_iff hanswers hkeys h).1 hw
      rw [(BeaconEntry.ofEntry_ok hparse).1]
      exact ⟨hkey, b, hb, rfl, hparse⟩
    · rintro ⟨hkey, b, hb, rfl, hparse⟩
      have hzero : ¬ b.key.all (· == 0) := by
        obtain ⟨octets, hoctets, hsame⟩ := hkeys _ hkey
        rw [← pubkeyOf_ne_unassigned_iff, hsame, pubkeyOf_ne_unassigned_iff]
        exact hoctets
      have hw := (mem_flatten_answers_iff hanswers hkeys h).2 ⟨b, hb, rfl, hzero, hkey⟩
      obtain ⟨v', hv', hparse'⟩ := exists_of_mem_left hvs hw
      rw [hparse] at hparse'
      cases hparse'
      exact ⟨v, hv', (BeaconEntry.ofEntry_ok hparse).1, rfl⟩
  rw [Table.find?_ofRows_eq_some_iff, hrows]
  intro v v' hv hv'
  obtain ⟨hkey, b, hb, rfl, hparse⟩ := (hrows v).1 hv
  obtain ⟨-, b', hb', hsame, hparse'⟩ := (hrows v').1 hv'
  obtain ⟨octets, hoctets, hoctetsKey⟩ := hkeys _ hkey
  -- both entries have the bytes of the key that is asked for
  have hbytes : b'.key = b.key := by
    rw [hoctetsKey] at hsame
    rw [← eq_of_pubkeyOf_eq hoctets hsame.symm, ← eq_of_pubkeyOf_eq hoctets hoctetsKey.symm]
  have hentry : b' = b := List.inj_on_of_nodup_map hheld hb' hb hbytes
  rw [hentry, hparse] at hparse'
  exact Except.ok.inj hparse'

/-- The validator that is found for a key is active exactly if the node holds an entry for the bytes
of the key that is. -/
theorem exists_active_iff (hheld : (held.map (·.key)).Nodup) {answers : List (List Value)}
    {vs : List Validator}
    (h : List.Forall₂ (BatchEntries out e slot) (batches e.batchSize (Table.distinct keys)) answers)
    (hvs : List.Forall₂ (fun entry v => Validator.ofEntry entry = .ok v) answers.flatten vs)
    {octets : List UInt8} (hzero : ¬ octets.all (· == 0)) (hkey : pubkeyOf octets ∈ keys)
    {epoch : Int} :
    (∃ v, Table.find? (Table.ofRows (validatorRows vs)) (pubkeyOf octets) = some v ∧
        v.activationEpoch ≤ epoch ∧ epoch < v.exitEpoch) ↔
      ∃ b ∈ held, b.key = octets ∧ b.ActiveIn epoch := by
  constructor
  · rintro ⟨v, hfind, hstart, hexit⟩
    obtain ⟨-, b, hb, hsame, hparse⟩ := (find?_validators_iff hanswers hkeys hheld h hvs).1 hfind
    obtain ⟨-, hactivation, hlast⟩ := BeaconEntry.ofEntry_ok hparse
    exact ⟨b, hb, (eq_of_pubkeyOf_eq hzero hsame.symm).symm, v.activationEpoch, v.exitEpoch,
      hactivation, hlast, hstart, hexit⟩
  · rintro ⟨b, hb, rfl, activation, exit, hactivation, hlast, hstart, hexit⟩
    have hw := (mem_flatten_answers_iff hanswers hkeys h).2 ⟨b, hb, rfl, hzero, hkey⟩
    obtain ⟨v, -, hparse⟩ := exists_of_mem_left hvs hw
    obtain ⟨-, hactivation', hlast'⟩ := BeaconEntry.ofEntry_ok hparse
    rw [hactivation] at hactivation'
    rw [hlast] at hlast'
    cases hactivation'
    cases hlast'
    exact ⟨v, (find?_validators_iff hanswers hkeys hheld h hvs).2 ⟨hkey, b, hb, rfl, hparse⟩,
      hstart, hexit⟩

end

end BeaconEndpoint

end StakeSnapshot
