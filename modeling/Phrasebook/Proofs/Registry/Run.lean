import Phrasebook.Proofs.KeyMap
import Phrasebook.Registry
import Mathlib.Data.List.Induction
import Mathlib.Data.List.Nodup

/-!
# Runs of a registry

A run is what a host asks of a registry, one request after another. The registry keeps the providers it has made, and
its bag the values of the properties. What it answers depends on the run through the current values alone, since every
provider has the handle of this bag.

## Layers

- `providers_answer`: what one request does to the providers that are kept.
- `Consistent`: what holds of the state at every point of a run; `Consistent.answer` is one request, and
  `consistent_stateAfter` a run.
- `GivenOut`: the providers that a run is given; they are kept to its end (`get?_providers_of_givenOut`).
- `valueAfter`: the value of a property, read off the run; `get?_bags_stateAfter` finds it in the bag.
- `Provider.call_congr`: what a provider looks at.
- `answerAfter_history_independent`: what a run is answered.
-/

namespace Phrasebook

/-! ## §1 Bags -/

@[simp] theorem RegistryState.bags_withBag (s : RegistryState) (bag : BagHandle) (values : KeyMap Json) :
    (s.withBag bag values).bags bag = values :=
  if_pos rfl

/-- What a provider answers depends on its table, its types and the values in its bag. -/
theorem Provider.call_congr {p p' : Provider} {bags bags' : PropertyBags} (htable : p.table = p'.table)
    (htypes : p.propertyTypes = p'.propertyTypes) (hbag : bags p.bag = bags' p'.bag) (call : ProviderCall) :
    p.call bags call = p'.call bags' call := by
  have hproperties : p.properties bags = p'.properties bags' := by
    unfold properties
    rw [htypes, hbag]
  cases call with
  | property name => simp only [Provider.call, property, htypes, hbag]
  | render key locale args => simp only [Provider.call, render, htable, hproperties]
  | renderByName key locale args => simp only [Provider.call, renderByName, htable, hproperties]
  | invoke method args => simp only [Provider.call, invoke, htable, hproperties]

namespace Registry

variable {r : Registry} {s : RegistryState}

/-! ## §2 States -/

theorem stateAfter_append (r : Registry) (before behind : List RegistryRequest) :
    r.stateAfter (before ++ behind)
      = behind.foldl (fun s request => (r.answer s request).2) (r.stateAfter before) :=
  List.foldl_append

theorem stateAfter_concat (r : Registry) (history : List RegistryRequest) (request : RegistryRequest) :
    r.stateAfter (history ++ [request]) = (r.answer (r.stateAfter history) request).2 := by
  rw [stateAfter_append]
  rfl

/-- A request that leaves the state as it is leaves no trace. -/
theorem stateAfter_of_answer_eq {before : List RegistryRequest} {request : RegistryRequest}
    (h : (r.answer (r.stateAfter before) request).2 = r.stateAfter before) (behind : List RegistryRequest) :
    r.stateAfter (before ++ request :: behind) = r.stateAfter (before ++ behind) := by
  rw [stateAfter_append, stateAfter_append, List.foldl_cons, h]

/-! ## §3 Providers -/

/-- A provider that was made before is given out again. -/
theorem provider_of_kept {c : String} {p : Provider} (h : s.providers.get? c = some p) :
    r.provider s c = (.ok p, s) := by
  simp only [provider, h]

theorem provider_of_unknown {c : String} (hnew : s.providers.get? c = none) (htable : r.tables.get? c = none) :
    r.provider s c = (.error (.providerNotFound c), s) := by
  simp only [provider, hnew, htable]

/-- A provider that is asked for first is made of the table of its contract and kept. -/
theorem provider_of_new {c : String} {t : Table} (hnew : s.providers.get? c = none)
    (htable : r.tables.get? c = some t) :
    r.provider s c
      = (.ok (r.newProvider s t), { s with providers := s.providers.insert c (r.newProvider s t) }) := by
  simp only [provider, hnew, htable]

/-- A request leaves the providers as they are, or it is the first one for the provider of a known contract. -/
theorem providers_answer (r : Registry) (s : RegistryState) (request : RegistryRequest) :
    (r.answer s request).2.providers = s.providers ∨
      ∃ c t, request = .provider c ∧ s.providers.get? c = none ∧ r.tables.get? c = some t ∧
        (r.answer s request).2.providers = s.providers.insert c (r.newProvider s t) := by
  cases request with
  -- Only the first question for a known contract adds a provider.
  | provider c =>
    cases hkept : s.providers.get? c with
    | some p => exact .inl (by rw [answer, provider_of_kept hkept])
    | none =>
      cases htable : r.tables.get? c with
      | none => exact .inl (by rw [answer, provider_of_unknown hkept htable])
      | some t => exact .inr ⟨c, t, rfl, hkept, htable, by rw [answer, provider_of_new hkept htable]⟩
  | set name value => exact .inl rfl
  | get name => exact .inl rfl
  | remove name => exact .inl rfl
  | call p call => exact .inl rfl

/-- What holds of the state of a registry at every point of a run. -/
structure Consistent (r : Registry) (s : RegistryState) : Prop where
  /-- A provider that is kept has the table of its contract. -/
  table : ∀ c p, s.providers.get? c = some p → r.tables.get? c = some p.table
  /-- It has the types of the registry, and the handle of its bag. -/
  shares : ∀ c p, s.providers.get? c = some p → p.propertyTypes = r.propertyTypes ∧ p.bag = r.bag
  /-- The next number is new. -/
  serial_lt : ∀ c p, s.providers.get? c = some p → p.serial < s.providers.size
  /-- The number of a provider is that of one contract. -/
  serial_inj : ∀ c c' p p', s.providers.get? c = some p → s.providers.get? c' = some p' →
    p.serial = p'.serial → c = c'

theorem consistent_fresh (r : Registry) : r.Consistent fresh := by
  refine ⟨fun c p h => ?_, fun c p h => ?_, fun c p h => ?_, fun c c' p p' h => ?_⟩ <;> cases h

theorem Consistent.answer (h : r.Consistent s) (request : RegistryRequest) :
    r.Consistent (r.answer s request).2 := by
  rcases providers_answer r s request with hsame | ⟨c₀, t, -, hnew, htable, hinsert⟩
  · refine ⟨?_, ?_, ?_, ?_⟩ <;> rw [hsame]
    · exact h.table
    · exact h.shares
    · exact h.serial_lt
    · exact h.serial_inj
  · -- What is kept behind the request is the new provider or was kept before.
    have hkept : ∀ c p, (s.providers.insert c₀ (r.newProvider s t)).get? c = some p →
        c = c₀ ∧ p = r.newProvider s t ∨ s.providers.get? c = some p := by
      intro c p hget
      rw [KeyMap.get?_insert] at hget
      split at hget
      · rename_i hc
        exact .inl ⟨hc, (Option.some.inj hget).symm⟩
      · exact .inr hget
    refine ⟨fun c p hget => ?_, fun c p hget => ?_, fun c p hget => ?_, fun c c' p p' hget hget' hserial => ?_⟩
    · rw [hinsert] at hget
      rcases hkept c p hget with ⟨rfl, rfl⟩ | hold
      · exact htable
      · exact h.table c p hold
    · rw [hinsert] at hget
      rcases hkept c p hget with ⟨-, rfl⟩ | hold
      · exact ⟨rfl, rfl⟩
      · exact h.shares c p hold
    · rw [hinsert] at hget ⊢
      rw [KeyMap.size_insert_of_get?_eq_none hnew]
      rcases hkept c p hget with ⟨rfl, rfl⟩ | hold
      · exact Nat.lt_succ_self _
      · exact Nat.lt_succ_of_lt (h.serial_lt c p hold)
    · rw [hinsert] at hget hget'
      rcases hkept c p hget with ⟨rfl, rfl⟩ | hold <;> rcases hkept c' p' hget' with ⟨rfl, rfl⟩ | hold'
      · rfl
      · exact absurd hserial (Nat.ne_of_gt (h.serial_lt c' p' hold'))
      · exact absurd hserial (Nat.ne_of_lt (h.serial_lt c p hold))
      · exact h.serial_inj c c' p p' hold hold' hserial

theorem consistent_stateAfter (r : Registry) (history : List RegistryRequest) :
    r.Consistent (r.stateAfter history) := by
  induction history using List.reverseRecOn with
  | nil => exact consistent_fresh r
  | append_singleton history request ih =>
    rw [stateAfter_concat]
    exact ih.answer request

/-- The table of a contract decides whether there is a provider. -/
theorem Consistent.provider_fst (h : r.Consistent s) (c : String) :
    (r.tables.get? c = none ∧ (r.provider s c).1 = .error (.providerNotFound c) ∧ (r.provider s c).2 = s) ∨
      ∃ p, r.tables.get? c = some p.table ∧ (r.provider s c).1 = .ok p ∧
        (r.provider s c).2.providers.get? c = some p := by
  cases hkept : s.providers.get? c with
  | some p =>
    rw [provider_of_kept hkept]
    exact .inr ⟨p, h.table c p hkept, rfl, hkept⟩
  | none =>
    cases htable : r.tables.get? c with
    | none =>
      rw [provider_of_unknown hkept htable]
      exact .inl ⟨rfl, rfl, rfl⟩
    | some t =>
      rw [provider_of_new hkept htable]
      exact .inr ⟨_, rfl, rfl, by rw [KeyMap.get?_insert, if_pos rfl]⟩

/-- A provider that is kept stays. -/
theorem get?_providers_answer {c : String} {p : Provider} (h : s.providers.get? c = some p)
    (request : RegistryRequest) : (r.answer s request).2.providers.get? c = some p := by
  rcases providers_answer r s request with hsame | ⟨c', t, -, hnew, -, hinsert⟩
  · rw [hsame, h]
  · have hne : c ≠ c' := by
      rintro rfl
      rw [hnew] at h
      cases h
    rw [hinsert, KeyMap.get?_insert, if_neg hne, h]

theorem get?_providers_append {before : List RegistryRequest} {c : String} {p : Provider}
    (h : (r.stateAfter before).providers.get? c = some p) (behind : List RegistryRequest) :
    (r.stateAfter (before ++ behind)).providers.get? c = some p := by
  induction behind using List.reverseRecOn with
  | nil => rwa [List.append_nil]
  | append_singleton behind request ih =>
    rw [← List.append_assoc, stateAfter_concat]
    exact get?_providers_answer ih request

/-! ## §4 Providers of a run -/

/-- A run asks for the provider of a contract and is given it. -/
def GivenOut (r : Registry) (history : List RegistryRequest) (c : String) (p : Provider) : Prop :=
  ∃ before behind, history = before ++ .provider c :: behind ∧
    r.answerAfter before (.provider c) = .provider (.ok p)

/-- What is given out is kept to the end of the run. -/
theorem get?_providers_of_givenOut {history : List RegistryRequest} {c : String} {p : Provider}
    (h : r.GivenOut history c p) : (r.stateAfter history).providers.get? c = some p := by
  obtain ⟨before, behind, rfl, hanswer⟩ := h
  have hgiven : (r.provider (r.stateAfter before) c).1 = .ok p := RegistryAnswer.provider.inj hanswer
  have hkept : (r.stateAfter (before ++ [.provider c])).providers.get? c = some p := by
    rw [stateAfter_concat]
    rcases (consistent_stateAfter r before).provider_fst c with ⟨-, herror, -⟩ | ⟨p', -, hok, hget⟩
    · rw [herror] at hgiven
      cases hgiven
    · obtain rfl : p' = p := Except.ok.inj (hok.symm.trans hgiven)
      exact hget
  rw [List.append_cons]
  exact get?_providers_append hkept behind

theorem givenOut_unique {history : List RegistryRequest} {c : String} {p p' : Provider}
    (h : r.GivenOut history c p) (h' : r.GivenOut history c p') : p' = p :=
  Option.some.inj ((get?_providers_of_givenOut h').symm.trans (get?_providers_of_givenOut h))

theorem table_of_givenOut {history : List RegistryRequest} {c : String} {p : Provider}
    (h : r.GivenOut history c p) : r.tables.get? c = some p.table :=
  (consistent_stateAfter r history).table c p (get?_providers_of_givenOut h)

theorem shares_of_givenOut {history : List RegistryRequest} {c : String} {p : Provider}
    (h : r.GivenOut history c p) : p.propertyTypes = r.propertyTypes ∧ p.bag = r.bag :=
  (consistent_stateAfter r history).shares c p (get?_providers_of_givenOut h)

theorem contract_of_serial_eq {history : List RegistryRequest} {c c' : String} {p p' : Provider}
    (h : r.GivenOut history c p) (h' : r.GivenOut history c' p') (hserial : p.serial = p'.serial) : c = c' :=
  (consistent_stateAfter r history).serial_inj c c' p p' (get?_providers_of_givenOut h)
    (get?_providers_of_givenOut h') hserial

/-- A provider is not found exactly when its contract has no table. -/
theorem answerAfter_provider_eq_error_iff {history : List RegistryRequest} {c : String} :
    r.answerAfter history (.provider c) = .provider (.error (.providerNotFound c)) ↔ r.tables.get? c = none := by
  rw [answerAfter, answer, RegistryAnswer.provider.injEq]
  rcases (consistent_stateAfter r history).provider_fst c with ⟨hnone, herror, -⟩ | ⟨p, htable, hok, -⟩
  · exact iff_of_true herror hnone
  · refine iff_of_false (fun herror => ?_) (fun hnone => ?_)
    · rw [hok] at herror
      cases herror
    · rw [htable] at hnone
      cases hnone

theorem exists_provider_of_get? {c : String} {t : Table} (h : r.tables.get? c = some t)
    (history : List RegistryRequest) :
    ∃ p, p.table = t ∧ r.answerAfter history (.provider c) = .provider (.ok p) := by
  rcases (consistent_stateAfter r history).provider_fst c with ⟨hnone, -, -⟩ | ⟨p, htable, hok, -⟩
  · rw [h] at hnone
    cases hnone
  · exact ⟨p, Option.some.inj (htable.symm.trans h), congrArg RegistryAnswer.provider hok⟩

/-- A question for a provider that fails, or that was asked before, leaves the state as it is. -/
theorem stateAfter_of_failed_or_repeated {before : List RegistryRequest} {c : String}
    (h : r.tables.get? c = none ∨ .provider c ∈ before) :
    (r.answer (r.stateAfter before) (.provider c)).2 = r.stateAfter before := by
  show (r.provider (r.stateAfter before) c).2 = r.stateAfter before
  cases htable : r.tables.get? c with
  | none =>
    rcases (consistent_stateAfter r before).provider_fst c with ⟨-, -, hsame⟩ | ⟨p, htable', -, -⟩
    · exact hsame
    · rw [htable] at htable'
      cases htable'
  | some t =>
    rcases h with hnone | hasked
    · rw [htable] at hnone
      cases hnone
    · -- The provider that was given out then is still there.
      obtain ⟨first, rest, hsplit⟩ := List.append_of_mem hasked
      obtain ⟨p, -, hanswer⟩ := exists_provider_of_get? htable first
      rw [provider_of_kept (get?_providers_of_givenOut ⟨first, rest, hsplit, hanswer⟩)]

/-! ## §5 Properties of a run -/

/-- What a request makes of the value of a property, if it is about its value. -/
def change? (name : String) : RegistryRequest → Option (Option Json)
  | .set n value => if name = n then some (some value) else none
  | .remove n => if name = n then some none else none
  | _ => none

/-- The value that a property was set to last in a run, unless it was removed since. -/
def valueAfter (history : List RegistryRequest) (name : String) : Option Json :=
  (history.reverse.findSome? (change? name)).getD none

theorem valueAfter_concat (history : List RegistryRequest) (request : RegistryRequest) (name : String) :
    valueAfter (history ++ [request]) name = (change? name request).getD (valueAfter history name) := by
  rw [valueAfter, valueAfter, List.reverse_concat, List.findSome?_cons]
  cases change? name request <;> rfl

theorem get?_bags_answer (r : Registry) (s : RegistryState) (request : RegistryRequest) (name : String) :
    ((r.answer s request).2.bags r.bag).get? name = (change? name request).getD ((s.bags r.bag).get? name) := by
  -- Two requests write to the bag; all others leave it as it is.
  cases request with
  | provider c =>
    show ((r.provider s c).2.bags r.bag).get? name = (s.bags r.bag).get? name
    unfold provider
    split
    · rfl
    · split <;> rfl
  | set n value =>
    show ((s.set r.bag n value).bags r.bag).get? name = _
    rw [RegistryState.set, RegistryState.bags_withBag, KeyMap.get?_insert, change?]
    split <;> rfl
  | get n => rfl
  | remove n =>
    show ((s.withBag r.bag ((s.bags r.bag).erase n)).bags r.bag).get? name = _
    rw [RegistryState.bags_withBag, KeyMap.get?_erase, change?]
    split <;> rfl
  | call p call => rfl

/-- The bag holds the current values of the properties. -/
theorem get?_bags_stateAfter (r : Registry) (history : List RegistryRequest) (name : String) :
    ((r.stateAfter history).bags r.bag).get? name = valueAfter history name := by
  induction history using List.reverseRecOn with
  | nil => rfl
  | append_singleton history request ih => rw [stateAfter_concat, get?_bags_answer, ih, valueAfter_concat]

/-- The requests that set properties to values. -/
def fill (values : List (String × Json)) : List RegistryRequest := values.map fun e => .set e.1 e.2

theorem bags_stateAfter_fill (r : Registry) (values : List (String × Json)) :
    (r.stateAfter (fill values)).bags r.bag = .ofList values := by
  induction values using List.reverseRecOn with
  | nil => rfl
  | append_singleton values e ih =>
    rw [fill, List.map_append, List.map_singleton, stateAfter_concat, KeyMap.ofList, List.foldl_concat]
    show ((r.stateAfter (fill values)).set r.bag e.1 e.2).bags r.bag = _
    rw [RegistryState.set, RegistryState.bags_withBag, ih]
    rfl

/-! ## §6 Answers -/

/-- In two runs that leave the properties with the same values, the providers of a contract answer alike, whenever
they were given out. -/
theorem answerAfter_call_congr {history history' : List RegistryRequest} {c : String} {p p' : Provider}
    (hp : r.GivenOut history c p) (hp' : r.GivenOut history' c p')
    (hbag : (r.stateAfter history).bags r.bag = (r.stateAfter history').bags r.bag) (call : ProviderCall) :
    r.answerAfter history (.call p call) = r.answerAfter history' (.call p' call) := by
  have htable : p.table = p'.table :=
    Option.some.inj ((table_of_givenOut hp).symm.trans (table_of_givenOut hp'))
  obtain ⟨htypes, hhandle⟩ := shares_of_givenOut hp
  obtain ⟨htypes', hhandle'⟩ := shares_of_givenOut hp'
  refine congrArg RegistryAnswer.called (Provider.call_congr htable (htypes.trans htypes'.symm) ?_ call)
  rw [hhandle, hhandle', hbag]

theorem get?_tables_ofTables {managerName defaultLocale : String} {locales : List String}
    {propertyTypes : KeyMap ParamType} {tables : List Table} (hnodup : (tables.map (·.contract)).Nodup)
    {c : String} {t : Table} :
    (Registry.ofTables managerName locales defaultLocale propertyTypes tables).tables.get? c = some t ↔
      t ∈ tables ∧ t.contract = c := by
  have hkeys : ((tables.map fun t => (t.contract, t)).map (·.1)).Nodup := by rwa [List.map_map]
  rw [ofTables, KeyMap.get?_ofList_eq_some_iff hkeys, List.mem_map]
  simp only [Prod.mk.injEq]
  refine ⟨fun h => ?_, fun h => ⟨t, h.1, h.2, rfl⟩⟩
  obtain ⟨t', ht', hc, rfl⟩ := h
  exact ⟨ht', hc⟩

/-- **Runs** of a registry of tables with distinct contracts do not depend on their history. At every point, a
contract with a table has one provider, which has this table, the types of the properties and the handle of the bag
that the host changes, and no other contract has one; a question for a provider that fails or was asked before changes
no answer; the properties have the values that they were set to last; and what a provider answers is what a registry
that nobody has used answers when its properties are set to the current values. -/
theorem answerAfter_history_independent {managerName defaultLocale : String} {locales : List String}
    {propertyTypes : KeyMap ParamType} {tables : List Table} {r : Registry}
    (hr : r = .ofTables managerName locales defaultLocale propertyTypes tables)
    (hnodup : (tables.map (·.contract)).Nodup) (history : List RegistryRequest) :
    (∀ c p, r.GivenOut history c p →
      p.table ∈ tables ∧ p.table.contract = c ∧ p.propertyTypes = propertyTypes ∧ p.bag = r.bag ∧
        (∀ p', r.GivenOut history c p' → p' = p) ∧
        ∀ c' p', r.GivenOut history c' p' → p'.serial = p.serial → c' = c) ∧
    (∀ c, ((∃ p, r.answerAfter history (.provider c) = .provider (.ok p)) ↔ ∃ t ∈ tables, t.contract = c) ∧
      (r.answerAfter history (.provider c) = .provider (.error (.providerNotFound c)) ↔
        ∀ t ∈ tables, t.contract ≠ c)) ∧
    (∀ before c behind, history = before ++ .provider c :: behind →
      (∀ t ∈ tables, t.contract ≠ c) ∨ .provider c ∈ before →
        ∀ request, r.answerAfter history request = r.answerAfter (before ++ behind) request) ∧
    (∀ name, r.answerAfter history (.get name) = .value (valueAfter history name) ∧
      r.answerAfter history (.remove name) = .value (valueAfter history name)) ∧
    ∀ c p, r.GivenOut history c p →
      ∃ values : List (String × Json), (values.map (·.1)).Nodup ∧
        (∀ name value, (name, value) ∈ values ↔ valueAfter history name = some value) ∧
        ∃ p', r.answerAfter (fill values) (.provider c) = .provider (.ok p') ∧
          ∀ call, r.answerAfter history (.call p call)
            = r.answerAfter (fill values ++ [.provider c]) (.call p' call) := by
  have hget : ∀ {c t}, r.tables.get? c = some t ↔ t ∈ tables ∧ t.contract = c := by
    rw [hr]
    exact get?_tables_ofTables hnodup
  have hnone : ∀ {c}, r.tables.get? c = none ↔ ∀ t ∈ tables, t.contract ≠ c := by
    intro c
    rw [Option.eq_none_iff_forall_ne_some]
    exact ⟨fun h t ht hc => h t (hget.mpr ⟨ht, hc⟩), fun h t ht => h t (hget.mp ht).1 (hget.mp ht).2⟩
  refine ⟨fun c p hp => ?_, fun c => ⟨?_, ?_⟩, ?_, fun name => ?_, fun c p hp => ?_⟩
  · obtain ⟨hmem, hcontract⟩ := hget.mp (table_of_givenOut hp)
    obtain ⟨htypes, hbag⟩ := shares_of_givenOut hp
    exact ⟨hmem, hcontract, htypes.trans (hr ▸ rfl), hbag, fun p' => givenOut_unique hp,
      fun c' p' hp' => contract_of_serial_eq hp' hp⟩
  · refine ⟨fun h => ?_, fun h => ?_⟩
    · obtain ⟨p, hp⟩ := h
      have hout : r.GivenOut (history ++ [.provider c]) c p := ⟨history, [], rfl, hp⟩
      exact ⟨p.table, hget.mp (table_of_givenOut hout)⟩
    · obtain ⟨t, ht⟩ := h
      obtain ⟨p, -, hp⟩ := exists_provider_of_get? (hget.mpr ht) history
      exact ⟨p, hp⟩
  · rw [answerAfter_provider_eq_error_iff, hnone]
  · rintro before c behind rfl h request
    rw [answerAfter, stateAfter_of_answer_eq (stateAfter_of_failed_or_repeated (h.imp_left hnone.mpr))]
    rfl
  · have hvalue := get?_bags_stateAfter r history name
    exact ⟨congrArg RegistryAnswer.value hvalue, congrArg RegistryAnswer.value hvalue⟩
  · -- The bag is filled with its own entries.
    let bag := (r.stateAfter history).bags r.bag
    have hfill : (r.stateAfter (fill bag.entries)).bags r.bag = bag := by
      rw [bags_stateAfter_fill, KeyMap.ofList_entries]
    refine ⟨bag.entries, KeyMap.keys_nodup _, fun name value => ?_, ?_⟩
    · rw [KeyMap.mem_entries_iff, get?_bags_stateAfter]
    · obtain ⟨p', -, hp'⟩ := exists_provider_of_get? (table_of_givenOut hp) (fill bag.entries)
      refine ⟨p', hp', fun call => answerAfter_call_congr hp ⟨_, [], rfl, hp'⟩ ?_ call⟩
      refine KeyMap.ext_get? fun name => ?_
      rw [stateAfter_concat, get?_bags_answer, hfill]
      rfl

namespace Rebranding

/-- A table with one key, which mentions a property. -/
def table : Table :=
  ⟨"app.Greetings", "greetings", ["en-US"], "en-US",
    .ofList [("hello", ⟨"hello", "hello", [], [], some ⟨"en-US", ⟨"Hello from {brand}"⟩⟩⟩)], .empty⟩

def registry : Registry :=
  .ofTables "app.Manager" ["en-US"] "en-US" (.ofList [("brand", .builtin .text false)]) [table]

/-- The provider is given out before the property is set, and again behind a question that fails. -/
def run : List RegistryRequest :=
  [.provider "app.Greetings", .set "brand" (.string "Acme"), .provider "app.Visitors", .set "brand" (.string "Emca"),
    .provider "app.Greetings"]

theorem answerAfter_history_independent_rebranding :
    ∃ p, registry.GivenOut run "app.Greetings" p ∧ (∀ p', registry.GivenOut run "app.Greetings" p' → p' = p) ∧
      registry.answerAfter run (.provider "app.Visitors") = .provider (.error (.providerNotFound "app.Visitors")) ∧
      registry.answerAfter run (.get "brand") = .value (some (.string "Emca")) ∧
      ∃ values p', registry.answerAfter (fill values ++ [.provider "app.Greetings"])
        (.call p' (.render "hello" "en-US" [])) = .called (.text (.ok "Hello from Emca")) := by
  have hp : registry.GivenOut run "app.Greetings" (registry.newProvider fresh table) := ⟨[], _, rfl, rfl⟩
  obtain ⟨hproviders, hquestions, -, hvalues, hcalls⟩ :=
    answerAfter_history_independent (r := registry) rfl (List.nodup_singleton _) run
  obtain ⟨values, -, -, p', -, hcall⟩ := hcalls "app.Greetings" _ hp
  refine ⟨_, hp, (hproviders _ _ hp).2.2.2.2.1, ?_, (hvalues "brand").1, values, p', ?_⟩
  · refine (hquestions "app.Visitors").2.mpr fun t ht => ?_
    rw [List.mem_singleton.mp ht]
    decide
  · rw [← hcall]
    rfl

end Rebranding

end Registry

end Phrasebook
