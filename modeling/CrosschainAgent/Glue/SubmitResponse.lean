import CrosschainAgent.Glue.Manager

/-!
# The answer to a submission

A node answers `/submitTransaction` with one result for each item of the request. The handlers read
the results as an array, the update of the timeout reads them as an object, and a missing member is
read as null by both.
-/

namespace CrosschainAgent

open HttpClient HandleManager

namespace Json

/-- The value is the number 0. -/
def IsZero : Json → Prop
  | .int n => n = 0
  | .real value _ => value = 0
  | _ => False

/-- A zero in whatever form reads as zero. -/
theorem IsZero.asInt {code : Json} (hzero : code.IsZero) : code.asInt = some 0 := by
  cases code with
  | int n =>
    cases hzero
    rfl
  | real value text =>
    cases hzero
    rfl
  | null | bool | str | arr | obj => exact False.elim hzero

end Json

namespace HttpClient

/-- The error code of a result, as it is read. -/
def codeOf (result : Json) : Option Int32 := do (← result.get "error_code".toList).asInt

/-- The description of the error of a result, as it is read. -/
def descOf (result : Json) : Option Text := do (← result.get "error_desc".toList).asString

/-- The hash of a result, as it is read. -/
def hashOf (result : Json) : Option Text := do (← result.get "hash".toList).asString

/-- The result has an error code, and it is the number 0. -/
def Accepted (result : Json) : Prop :=
  ∃ code, result.get "error_code".toList = some code ∧ code.IsZero

/-- The result is read as that of an accepted transaction. -/
def Passes (result : Json) : Prop := codeOf result = some 0 ∧ (hashOf result).isSome

/-- The body is the answer of a node that accepted the transaction with this hash: a JSON document with
an array of results in which every error code is 0, one of them with the hash. -/
def AcceptedBy (body : Option Json) (txhash : Text) : Prop :=
  ∃ doc results, body = some doc ∧ doc.get "results".toList = some (.arr results) ∧
    (∀ result ∈ results, Accepted result) ∧ txhash ≠ [] ∧ ∃ result ∈ results, hashOf result = some txhash

/-- The body has none of the shapes that are accepted without an accepted transaction: no results, or
results that are not an array, an empty array, an array that passes though an error code is missing or
not a number, or one that passes with a last hash that is missing or empty. -/
def NoGap (body : Option Json) : Prop :=
  ∀ doc value, body = some doc → doc.get "results".toList = some value →
    ∃ results last, value = .arr results ∧ results.getLast? = some last ∧
      ((∀ result ∈ results, Passes result) →
        (∀ result ∈ results, Accepted result) ∧ hashOf last ≠ some [])

variable {doc result : Json} {results : List Json} {acc txhash : Text} {body : Option Json}

/-- The results are checked one after another, up to the first error. -/
theorem checkResults_cons : checkResults (result :: results) acc = (do
    let errorCode ← codeOf result
    if errorCode ≠ 0 then
      let _error_desc ← descOf result
      return none
    else
      checkResults results (← hashOf result)) := by
  simp only [checkResults, codeOf, descOf, hashOf, bind_assoc]

/-- The loop accepts the results that all pass, with the hash of the last. -/
theorem checkResults_eq_some_iff : checkResults results acc = some (some txhash) ↔
    (∀ result ∈ results, Passes result) ∧ results.getLast?.elim (some acc) hashOf = some txhash := by
  induction results generalizing acc with
  | nil => simp [checkResults]
  | cons result results ih =>
    have hlast : ∀ hash, hashOf result = some hash →
        (result :: results).getLast?.elim (some acc) hashOf =
          results.getLast?.elim (some hash) hashOf := by
      intro hash hhash
      cases results with
      | nil => exact hhash
      | cons next rest => rw [List.getLast?_cons_cons, List.getLast?_cons, Option.elim_some, Option.elim_some]
    rw [checkResults_cons, List.forall_mem_cons, Passes]
    cases hcode : codeOf result with
    | none => simp
    | some code =>
      by_cases hzero : code = 0
      · cases hhash : hashOf result with
        | none => simp [hzero]
        | some hash => simp [hzero, ih, hlast hash hhash]
      · cases descOf result <;> simp [hzero]

/-- A list of results is checked result by result. -/
theorem checkTxResponse_arr (hresults : doc.get "results".toList = some (.arr results)) :
    checkTxResponse doc = checkResults results [] := by
  rw [checkTxResponse, hresults]
  rfl

/-- Results that are not an array are accepted with an empty hash. -/
theorem checkTxResponse_of_not_arr {value : Json} (hresults : doc.get "results".toList = some value)
    (hnot : ∀ results, value ≠ .arr results) : checkTxResponse doc = some (some []) := by
  rw [checkTxResponse, hresults]
  cases value with
  | arr results => exact False.elim (hnot results rfl)
  | null | bool | int | real | str | obj => rfl

/-- A response is accepted with the hash that the check returns. -/
theorem acceptedHash_response {doc : Json} :
    acceptedHash (.response (some doc)) = some txhash ↔ checkTxResponse doc = some (some txhash) := by
  change (checkTxResponse doc).join = some txhash ↔ _
  rw [Option.join_eq_some_iff]

/-- A body without a gap is accepted when all results pass, with the hash of the last. -/
theorem NoGap.accepted_iff (hnoGap : NoGap body) : acceptedHash (.response body) = some txhash ↔
    ∃ doc results last, body = some doc ∧ doc.get "results".toList = some (.arr results) ∧
      results.getLast? = some last ∧ (∀ result ∈ results, Passes result) ∧ hashOf last = some txhash := by
  constructor
  · intro haccepted
    cases body with
    | none => cases haccepted
    | some doc =>
      have haccepted := acceptedHash_response.mp haccepted
      cases hvalue : doc.get "results".toList with
      | none =>
        rw [checkTxResponse, hvalue] at haccepted
        cases haccepted
      | some value =>
        obtain ⟨results, last, rfl, hlast, _⟩ := hnoGap doc value rfl hvalue
        rw [checkTxResponse_arr hvalue, checkResults_eq_some_iff, hlast] at haccepted
        exact ⟨doc, results, last, rfl, hvalue, hlast, haccepted⟩
  · rintro ⟨doc, results, last, rfl, hvalue, hlast, hpasses, hhash⟩
    rw [acceptedHash_response, checkTxResponse_arr hvalue, checkResults_eq_some_iff, hlast]
    exact ⟨hpasses, hhash⟩

/-- A body that is accepted is that of a node that accepted the transaction exactly when it has none
of the shapes that slip through. -/
theorem acceptedBy_iff_noGap :
    (∀ txhash, acceptedHash (.response body) = some txhash → AcceptedBy body txhash) ↔ NoGap body := by
  constructor
  · rintro hsound doc value rfl hvalue
    have hnot : checkTxResponse doc ≠ some (some []) := by
      intro hempty
      obtain ⟨_, _, _, _, _, hne, _⟩ := hsound [] (acceptedHash_response.mpr hempty)
      exact hne rfl
    by_cases harr : ∀ results, value ≠ .arr results
    · exact False.elim (hnot (checkTxResponse_of_not_arr hvalue harr))
    · obtain ⟨results, hresults⟩ := not_forall_not.mp harr
      subst hresults
      cases hlast : results.getLast? with
      | none =>
        cases List.getLast?_eq_none_iff.mp hlast
        exact False.elim (hnot (checkTxResponse_arr hvalue))
      | some last =>
        refine ⟨results, last, rfl, hlast, fun hpasses => ?_⟩
        obtain ⟨hash, hhash⟩ := Option.isSome_iff_exists.mp
          (hpasses last (List.mem_of_getLast? hlast)).2
        have haccepted : checkTxResponse doc = some (some hash) := by
          rw [checkTxResponse_arr hvalue, checkResults_eq_some_iff, hlast]
          exact ⟨hpasses, hhash⟩
        obtain ⟨doc', results', heq, hvalue', hall, hne, _⟩ :=
          hsound hash (acceptedHash_response.mpr haccepted)
        cases heq
        rw [hvalue] at hvalue'
        cases hvalue'
        refine ⟨hall, ?_⟩
        rw [hhash]
        exact fun heq => hne (Option.some.inj heq)
  · intro hnoGap txhash haccepted
    obtain ⟨doc, results, last, rfl, hvalue, hlast, hpasses, hhash⟩ := hnoGap.accepted_iff.mp haccepted
    obtain ⟨results', last', heq, hlast', hgap⟩ := hnoGap doc _ rfl hvalue
    cases heq
    cases hlast.symm.trans hlast'
    obtain ⟨hall, hne⟩ := hgap hpasses
    refine ⟨doc, results, rfl, hvalue, hall, ?_, last, List.mem_of_getLast? hlast, hhash⟩
    rintro rfl
    exact hne hhash

end HttpClient

namespace HandleManager

variable {doc : Json} {body : Option Json}

/-- The two readings of a submit response are one: neither throws, and they reject it alike or accept it
with the same hash. -/
def OneReading (doc : Json) : Prop :=
  ∃ res, checkTxResponse doc = some res ∧ readUpdateResponse doc = some res

/-- The response to an update is read as one result. -/
theorem readUpdateResponse_eq {value : Json} (hvalue : doc.get "results".toList = some value) :
    readUpdateResponse doc = (do
      let errorCode ← codeOf value
      if errorCode ≠ 0 then
        let _error_desc ← descOf value
        return none
      else
        return some (← hashOf value)) := by
  simp only [readUpdateResponse, hvalue, codeOf, descOf, hashOf, Option.bind_eq_bind, Option.bind_some,
    Option.bind_assoc]

/-- The update accepts with an empty hash only an error code and a hash that are read so. -/
theorem readUpdateResponse_eq_empty_iff {value : Json}
    (hvalue : doc.get "results".toList = some value) :
    readUpdateResponse doc = some (some []) ↔ codeOf value = some 0 ∧ hashOf value = some [] := by
  rw [readUpdateResponse_eq hvalue]
  cases hcode : codeOf value with
  | none => simp
  | some code =>
    by_cases hzero : code = 0
    · cases hhash : hashOf value <;> simp [hzero]
    · cases descOf value <;> simp [hzero]

/-- The update throws on an array of results, which is the answer of a node. -/
theorem readUpdateResponse_arr {results : List Json}
    (hvalue : doc.get "results".toList = some (.arr results)) : readUpdateResponse doc = none := by
  rw [readUpdateResponse_eq hvalue]
  rfl

/-- The two readings are one exactly for the documents whose results are missing or null, or an object
whose error code reads as 0 and whose hash reads as empty. -/
theorem oneReading_iff (doc : Json) : OneReading doc ↔
    doc.get "results".toList = some .null ∨
      ∃ members, doc.get "results".toList = some (.obj members) ∧
        codeOf (.obj members) = some 0 ∧ hashOf (.obj members) = some [] := by
  constructor
  · rintro ⟨res, hcheck, hupdate⟩
    cases hvalue : doc.get "results".toList with
    | none =>
      rw [checkTxResponse, hvalue] at hcheck
      cases hcheck
    | some value =>
      have hnot : ∀ results, value ≠ .arr results := by
        rintro results rfl
        rw [readUpdateResponse_arr hvalue] at hupdate
        cases hupdate
      rw [checkTxResponse_of_not_arr hvalue hnot] at hcheck
      cases hcheck
      have hempty := (readUpdateResponse_eq_empty_iff hvalue).mp hupdate
      cases value with
      | null => exact Or.inl rfl
      | obj members => exact Or.inr ⟨members, rfl, hempty⟩
      | arr results => exact False.elim (hnot results rfl)
      | bool | int | real | str => exact nomatch hempty.1
  · intro hcases
    have hshape : ∃ value, doc.get "results".toList = some value ∧
        (∀ results, value ≠ .arr results) ∧ codeOf value = some 0 ∧ hashOf value = some [] := by
      rcases hcases with hnull | ⟨members, hobj, hempty⟩
      · exact ⟨.null, hnull, nofun, rfl, rfl⟩
      · exact ⟨.obj members, hobj, nofun, hempty⟩
    obtain ⟨value, hvalue, hnot, hempty⟩ := hshape
    exact ⟨some [], checkTxResponse_of_not_arr hvalue hnot,
      (readUpdateResponse_eq_empty_iff hvalue).mpr hempty⟩

/-- The answer of a node that accepted a transaction throws when it is read as an object. -/
theorem not_oneReading_accepted : ¬OneReading (.obj [("results".toList, .arr [
    .obj [("error_code".toList, .int 0), ("hash".toList, .str "4a".toList)]])]) := by
  rintro ⟨res, -, hupdate⟩
  rw [readUpdateResponse_arr rfl] at hupdate
  cases hupdate

end HandleManager

end CrosschainAgent
