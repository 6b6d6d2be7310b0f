import RCloneCloud.Handler.Serve

/-!
# `Handler.PostParams` — the parameter map of a POST

The query or the form fills a map; a JSON body is decoded into it. An object is merged (`Merged`), an empty
body leaves the map alone, and a null replaces it by the nil map, which the handler then writes to for the
methods that ask for the request or the response writer.

`postParams_merged_iff` is the exact statement: the parameters are the query's or the form's with the members of the
body over them, unless the body is a null. Where a null has replaced the map and the method asks for the request or
the response writer, the write to the nil map panics (`nullRequest_panics`).
-/

set_option autoImplicit false

namespace RCloneCloud

/-- The last value that the query or the form has under a key. -/
def formValue (r : Request) (key : GoString) : Option Value :=
  match parseContentType r with
  | .error _ => none
  | .ok (mediaType, _) =>
    match readValues r mediaType with
    | .error _ => none
    | .ok values => (values[key]?.bind List.getLast?).map fun s => .json (.string s)

/-- The parameters are a map, with the members of the JSON body over the values of the query or the form. -/
def Merged (r : Request) (p : Params) : Prop :=
  ∃ m, p = some m ∧ ∀ key, m[key]? = ((jsonMember r key).map Value.json).or (formValue r key)

/-- The body is the JSON value null, sent as such. -/
def NullBody (r : Request) : Prop :=
  (∃ mediaParams, parseContentType r = .ok (str "application/json", mediaParams)) ∧ r.body = .value .null

/-- Of a key that is given several times the last value counts. -/
theorem paramsOf_eq (values : Values) (key : GoString) :
    (paramsOf values)[key]? = (values[key]?.bind List.getLast?).map fun s => .json (.string s) := by
  rw [paramsOf, Std.ExtTreeMap.getElem?_filterMap']
  cases values[key]? with
  | none => rfl
  | some vs => rfl

section
variable {r : Request} {p q : Params}

/-- The parameters of a request whose body is not decoded as JSON. -/
theorem merged_paramsOf {mediaType : GoString} {mediaParams : GoMap GoString} {values : Values}
    (hct : parseContentType r = .ok (mediaType, mediaParams)) (hvals : readValues r mediaType = .ok values)
    (hno : ∀ key, jsonMember r key = none) : Merged r (some (paramsOf values)) := by
  refine ⟨_, rfl, fun key => ?_⟩
  rw [hno, Option.map_none, Option.none_or, paramsOf_eq, formValue, hct]
  dsimp only
  rw [hvals]

/-- **The built map is the merged one, exactly if the body is no JSON null.** -/
theorem buildParams_merged_iff (h : buildParams r = .ok p) : Merged r p ↔ ¬ NullBody r := by
  obtain ⟨mediaType, mediaParams, values, hct, hvals, hbody⟩ := buildParams_ok h
  by_cases hjson : mediaType = str "application/json"
  · rw [if_pos hjson] at hbody
    rcases decodeBody_ok hbody with ⟨hb, rfl⟩ | ⟨hb, rfl⟩ | ⟨members, hb, rfl⟩
    · -- an empty body
      have hmerged : Merged r (some (paramsOf values)) := by
        refine merged_paramsOf hct hvals fun key => ?_
        rw [jsonMember_json hct hjson, hb]
      exact iff_of_true hmerged fun hnull => nomatch hb.symm.trans hnull.2
    -- a null has replaced the map
    · refine iff_of_false (fun hm => ?_) fun hno => hno ⟨⟨mediaParams, hjson ▸ hct⟩, hb⟩
      obtain ⟨m, hm, -⟩ := hm
      cases hm
    · refine iff_of_true ⟨_, rfl, fun key => ?_⟩ fun hnull => nomatch hb.symm.trans hnull.2
      -- a member of the object replaces the value of the query
      rw [mergeMembers_getElem?, Option.getD_some, paramsOf_eq, formValue, jsonMember_json hct hjson, hct]
      simp only [hvals, hb]
      cases lastMember members key with
      | none => rfl
      | some j => rfl
  · rw [if_neg hjson] at hbody
    subst hbody
    have hmerged : Merged r (some (paramsOf values)) := by
      refine merged_paramsOf hct hvals fun key => ?_
      rw [jsonMember, hct]
      exact if_neg hjson
    refine iff_of_true hmerged ?_
    rintro ⟨⟨mediaParams', hct'⟩, -⟩
    cases hct.symm.trans hct'
    exact hjson rfl

/-- Writing to a map does not panic. -/
theorem addHandles_some (call : Call) (m : GoMap Value) : addHandles call (some m) ≠ none := by
  unfold addHandles
  cases call.needsRequest with
  | true => cases call.needsResponse <;> simp [Params.assign]
  | false => cases call.needsResponse <;> simp [Params.assign]

variable {env : RcEnv} {path : GoString} {call : Call}

/-- **The parameters of a POST** to an allowed and registered method, once they are built, are the values of
    the query or the form overridden by the members of the JSON body, and the handler can write to them,
    exactly if the body is no JSON null. -/
theorem postParams_merged_iff (hallowed : path ∈ allowedMethods) (hcall : env.calls path = some call)
    (h : buildParams r = .ok p) :
    (Merged r p ∧ addHandles call p ≠ none ∧ handlePost env r path ≠ .panicked) ↔ ¬ NullBody r := by
  rw [← buildParams_merged_iff h]
  refine ⟨And.left, fun hm => ?_⟩
  obtain ⟨m, rfl, -⟩ := id hm
  have hadd := addHandles_some call m
  refine ⟨hm, hadd, ?_⟩
  simp only [handlePost, h, dispatch, List.contains_eq_mem, decide_eq_true hallowed, hcall]
  split
  · intro hp
    cases hp
  · split
    · intro hp
      cases hp
    · split
      · next hnone => exact absurd hnone hadd
      · intro hp
        cases hp

end

/-! ## A null body -/

/-- A POST with the JSON body null, and a value in its query. -/
def nullRequest : Request where
  method := str "POST"
  urlPath := str "/operations/uploadfile"
  contentType := str "application/json"
  mediaType := .ok (str "application/json", ∅)
  query := (∅ : Values).insert (str "fs") [str "s3:"]
  form := .ok ∅
  body := .value .null

/-- The environment of the concrete requests: one remote, and the upload, which asks for the request. -/
def uploadEnv : RcEnv where
  sections := [str "s3"]
  calls path := if path = str "operations/uploadfile" then some ⟨true, false⟩ else none

/-- **A null body makes the handler panic**: the built parameters are the nil map, the value of the query is
    lost, and writing `_request` panics. -/
theorem nullRequest_panics :
    buildParams nullRequest = .ok none ∧ ¬ Merged nullRequest none ∧
      formValue nullRequest (str "fs") ≠ none ∧ serveHTTP uploadEnv nullRequest = .panicked := by
  have hvalue : formValue nullRequest (str "fs") = some (.json (.string (str "s3:"))) := rfl
  refine ⟨rfl, fun h => ?_, ?_, rfl⟩
  · obtain ⟨m, hm, -⟩ := h
    cases hm
  · rw [hvalue]
    exact Option.some_ne_none _

/-- The same POST with an object. -/
def objectRequest : Request :=
  { nullRequest with body := .value (.object [(str "remote", .string (str "a.txt"))]) }

/-- A body that is an object is merged, and the method that asks for the request gets it. -/
theorem objectRequest_merged :
    ∃ p, buildParams objectRequest = .ok p ∧ Merged objectRequest p ∧
      handlePost uploadEnv objectRequest (str "operations/uploadfile") ≠ .panicked := by
  have hbuild : buildParams objectRequest = .ok _ := rfl
  have hallowed : str "operations/uploadfile" ∈ allowedMethods := by decide
  have hcall : uploadEnv.calls (str "operations/uploadfile") = some ⟨true, false⟩ := rfl
  have hiff := postParams_merged_iff hallowed hcall hbuild
  have hbody : ¬ NullBody objectRequest := fun h => nomatch h.2
  obtain ⟨hm, -, hpanic⟩ := hiff.mpr hbody
  exact ⟨_, hbuild, hm, hpanic⟩

end RCloneCloud
