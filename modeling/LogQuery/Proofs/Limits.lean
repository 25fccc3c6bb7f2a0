import LogQuery.Proofs.Agreement

/-!
Statements of the service are bounded. The settings are only loaded with a positive
limit and a zone that is accepted, so every statement that is answered ends with a
limit, and no request is refused for a zone that it does not name.
-/

namespace LogQuery

/-! ## Settings -/

theorem mapError_eq_ok_iff {ε ε' α : Type} {result : Except ε α} {transform : ε → ε'}
    {value : α} : result.mapError transform = .ok value ↔ result = .ok value := by
  cases result with
  | error error => simp [Except.mapError]
  | ok found => simp [Except.mapError]

theorem mapError_eq_error_iff {ε ε' α : Type} {result : Except ε α} {transform : ε → ε'}
    {error : ε'} :
    result.mapError transform = .error error ↔
      ∃ cause, result = .error cause ∧ transform cause = error := by
  cases result with
  | error cause => simp [Except.mapError]
  | ok found => simp [Except.mapError]

structure Settings.Sound (settings : Settings) : Prop where
  limit : 0 < settings.defaultLimit
  timezone : Parameter.checkTimezone settings.defaultTimezone = .ok ()

theorem Settings.sound_of_load {lookup : String → Option String} {settings : Settings}
    (loaded : ofEnvironment lookup = .ok settings) : settings.Sound := by
  rcases bind_eq_ok_iff.mp loaded with ⟨port, _, loaded⟩
  rcases bind_eq_ok_iff.mp loaded with ⟨limit, _, loaded⟩
  by_cases low : limit ≤ 0
  · rw [if_pos low] at loaded
    cases loaded
  · rw [if_neg low] at loaded
    rcases bind_eq_ok_iff.mp loaded with ⟨_, accepted, loaded⟩
    cases loaded
    exact ⟨Int.not_le.mp low, mapError_eq_ok_iff.mp accepted⟩

/-- The limit of a statement: the one asked for if it is positive, otherwise that of the
settings. -/
inductive Settings.Grants (settings : Settings) : Option Int → Int → Prop
  | asked {limit : Int} (positive : 0 < limit) : settings.Grants (some limit) limit
  | unasked : settings.Grants none settings.defaultLimit
  | lifted {limit : Int} (notPositive : limit ≤ 0) :
      settings.Grants (some limit) settings.defaultLimit

theorem Settings.grants_effectiveLimit (settings : Settings) (asked : Option Int) :
    settings.Grants asked (settings.effectiveLimit asked) := by
  cases asked with
  | none => exact .unasked
  | some limit =>
      by_cases positive : 0 < limit
      · have same : settings.effectiveLimit (some limit) = limit := by
          simp [effectiveLimit, Option.filter, positive]
        rw [same]
        exact .asked positive
      · have same : settings.effectiveLimit (some limit) = settings.defaultLimit := by
          simp [effectiveLimit, Option.filter, positive]
        rw [same]
        exact .lifted (Int.not_lt.mp positive)

theorem Settings.Grants.positive {settings : Settings} {asked : Option Int}
    {limit : Int} (grants : settings.Grants asked limit) (sound : settings.Sound) :
    0 < limit := by
  cases grants with
  | asked positive => exact positive
  | unasked => exact sound.limit
  | lifted notPositive => exact sound.limit

/-! ## Ends of statements -/

def Dialect.limitClause : Dialect → Int → String
  | clickhouse, limit => "\nLIMIT " ++ toString limit
  | victorialogs, limit => " | limit " ++ toString limit

theorem Sql.Request.render_limited {request : Request} (positive : 0 < request.limit)
    (query : Query) :
    ∃ front,
      request.render query =
        front ++ Dialect.limitClause .clickhouse request.limit := by
  have clause :
      (if 0 < request.limit then "\nLIMIT " ++ toString request.limit else "") =
        Dialect.limitClause .clickhouse request.limit := if_pos positive
  rw [← clause]
  exact ⟨_, rfl⟩

theorem LogsQl.Request.render_limited {request : Request} (positive : 0 < request.limit)
    (query : Query) :
    ∃ front,
      request.render query =
        front ++ Dialect.limitClause .victorialogs request.limit := by
  have clause :
      (if 0 < request.limit then " | limit " ++ toString request.limit else "") =
        Dialect.limitClause .victorialogs request.limit := if_pos positive
  rw [← clause]
  exact ⟨_, rfl⟩

/-! ## Faults of zones -/

theorem Sql.Request.timezone_of_code {request : Request} {error : QueryError}
    (failed : request.check = .error error) (code : error.code = .invalidTimezone) :
    Parameter.checkTimezone request.timezone = .error error := by
  rcases bind_eq_error_iff.mp failed with startTime | ⟨_, _, failed⟩
  · rw [Parameter.time_code startTime] at code
    cases code
  rcases bind_eq_error_iff.mp failed with endTime | ⟨_, _, failed⟩
  · rw [Parameter.time_code endTime] at code
    cases code
  rcases bind_eq_error_iff.mp failed with timezone | ⟨_, _, failed⟩
  · exact timezone
  rcases bind_eq_error_iff.mp failed with table | ⟨_, _, timestampField⟩
  · rw [Parameter.table_code table] at code
    cases code
  · rw [Parameter.timestampField_code timestampField] at code
    cases code

theorem Instant.read_code {text : String} {error : QueryError}
    (failed : read text = .error error) : error.code = .invalidTimeFormat := by
  rw [read] at failed
  split at failed
  · cases failed
  · split at failed
    · cases failed
    · cases failed
      rfl

theorem FaultCode.name_inj {first second : FaultCode}
    (same : first.name = second.name) : first = second := by
  revert same
  cases first <;> cases second <;> decide

/-! ## Entries of answers -/

namespace Json

def string? : Json → Option String
  | string text => some text
  | _ => none

def text? (key : String) : Json → Option String
  | object entries => (entries.lookup key).bind string?
  | _ => none

@[simp] theorem text?_objectOf_nil (key : String) : (objectOf []).text? key = none :=
  rfl

@[simp] theorem text?_objectOf_other {key other : String} (different : key ≠ other)
    (value : Option Json) (entries : List (String × Option Json)) :
    (objectOf ((other, value) :: entries)).text? key =
      (objectOf entries).text? key := by
  cases value with
  | none => rfl
  | some value => simp [objectOf, text?, List.lookup_cons, beq_false_of_ne different]

@[simp] theorem text?_objectOf_last (key : String) (value : Option Json) :
    (objectOf [(key, value)]).text? key = value.bind string? := by
  cases value with
  | none => rfl
  | some value => simp [objectOf, text?]

end Json

namespace Answer

theorem text?_statementKey (dialect other : Dialect)
    (result : Except QueryError Compilation) (statement : Option String) :
    (ofCompilation dialect result statement).text? (statementKey other) =
      if other = dialect then statement else none := by
  have strings : (statement.map Json.string).bind Json.string? = statement := by
    cases statement <;> rfl
  cases dialect <;> cases other <;>
    simp [ofCompilation, statementKey, filterKey, strings]

theorem text?_code (dialect : Dialect) (result : Except QueryError Compilation)
    (statement : Option String) :
    (ofCompilation dialect result statement).text? "code" = none := by
  cases dialect <;> simp [ofCompilation, statementKey, filterKey]

end Answer

/-! ## Requests -/

namespace Service

def Response.text? (response : Response) (key : String) : Option String :=
  response.body.bind (Json.text? key)

namespace Refusal

theorem text?_report (kind message : String) (code : Option FaultCode)
    (dialect : Dialect) :
    (report kind message code).text? (Answer.statementKey dialect) = none := by
  cases dialect <;> simp [report, Answer.statementKey]

theorem code_report (kind message : String) (code : Option FaultCode) :
    (report kind message code).text? "code" = code.map FaultCode.name := by
  have strings : (code.map fun code => Json.string code.name).bind Json.string? =
      code.map FaultCode.name := by
    cases code <;> rfl
  simp [report, strings]

theorem text?_of_report {refusal : Refusal} {kind message : String}
    {code : Option FaultCode} (same : refusal.body? = some (report kind message code))
    (key : String) :
    refusal.response.text? key = (report kind message code).text? key := by
  rw [response, Response.text?, same]
  rfl

theorem text?_response (refusal : Refusal) (dialect : Dialect) :
    refusal.response.text? (Answer.statementKey dialect) = none := by
  have reported (kind message : String) (code : Option FaultCode)
      (same : refusal.body? = some (report kind message code)) :
      refusal.response.text? (Answer.statementKey dialect) = none :=
    (text?_of_report same _).trans (text?_report kind message code dialect)
  cases refusal with
  | queryTooLong => exact reported _ _ _ rfl
  | singleBound => exact reported _ _ _ rfl
  | missingTable => exact reported _ _ _ rfl
  | invalidParameter error => exact reported _ _ _ rfl
  | _ => rfl

def code? : Refusal → Option FaultCode
  | invalidParameter error => some error.code
  | _ => none

theorem code_response (refusal : Refusal) :
    refusal.response.text? "code" = refusal.code?.map FaultCode.name := by
  have reported (kind message : String) (code : Option FaultCode)
      (same : refusal.body? = some (report kind message code)) :
      refusal.response.text? "code" = code.map FaultCode.name :=
    (text?_of_report same _).trans (code_report kind message code)
  cases refusal with
  | queryTooLong => exact reported _ _ _ rfl
  | singleBound => exact reported _ _ _ rfl
  | missingTable => exact reported _ _ _ rfl
  | invalidParameter error => exact reported _ _ _ rfl
  | _ => rfl

end Refusal

theorem code_of_readRequest {α : Type} {decode : Json.Decoder α} {request : Request}
    {refusal : Refusal} (failed : readRequest decode request = .error refusal) :
    refusal.code? = none := by
  rw [readRequest] at failed
  split at failed
  · cases failed
    rfl
  · split at failed
    · cases failed
      rfl
    · rcases mapError_eq_error_iff.mp failed with ⟨cause, _, same⟩
      cases cause <;> cases same <;> rfl

theorem code_of_checkLength {query : String} {refusal : Refusal}
    (failed : checkLength query = .error refusal) : refusal.code? = none := by
  rw [checkLength] at failed
  split at failed
  · cases failed
    rfl
  · cases failed

/-- What can become of a request. Only a compilation can lead to a statement or to a
code. -/
inductive Answered (settings : Settings) (request : Request) :
    Except Refusal Response → Prop
  | compiled {body : CompileBody} {json : Json}
      (read : readRequest CompileBody.decode request = .ok body)
      (answered : answerCompile settings body = .ok json) :
      Answered settings request (.ok { status := 200, body := some json })
  | uncompiled {body : CompileBody} {refusal : Refusal}
      (read : readRequest CompileBody.decode request = .ok body)
      (failed : answerCompile settings body = .error refusal) :
      Answered settings request (.error refusal)
  | unrelated {response : Response}
      (noStatement : ∀ dialect, response.text? (Answer.statementKey dialect) = none)
      (noCode : response.text? "code" = none) : Answered settings request (.ok response)
  | refused {refusal : Refusal} (noCode : refusal.code? = none) :
      Answered settings request (.error refusal)

section

variable (settings : Settings) (request : Request)

theorem answered_compile :
    Answered settings request (do
      let json ← answerCompile settings (← readRequest CompileBody.decode request)
      return { status := 200, body := some json }) := by
  cases read : readRequest CompileBody.decode request with
  | error refusal => exact .refused (code_of_readRequest read)
  | ok body =>
      change Answered settings request (answerCompile settings body >>= _)
      cases answered : answerCompile settings body with
      | error refusal => exact .uncompiled read answered
      | ok json => exact .compiled read answered

theorem answered_query {answer : String → Json}
    (noStatement : ∀ query dialect,
      (answer query).text? (Answer.statementKey dialect) = none)
    (noCode : ∀ query, (answer query).text? "code" = none) :
    Answered settings request (do
      return { status := 200, body := some (← answerQuery request answer) }) := by
  rw [answerQuery]
  cases read : readRequest decodeQueryText request with
  | error refusal => exact .refused (code_of_readRequest read)
  | ok query =>
      change Answered settings request
        ((checkLength query >>= fun _ => .ok (answer query)) >>= _)
      cases short : checkLength query with
      | error refusal => exact .refused (code_of_checkLength short)
      | ok => exact .unrelated (noStatement query) (noCode query)

theorem answered (route : Route) :
    Answered settings request (answer settings request route) := by
  unfold answer
  split
  · exact .unrelated (fun dialect => by cases dialect <;> rfl) rfl
  · exact .unrelated (fun _ => rfl) rfl
  · exact answered_compile settings request
  · refine answered_query settings request (fun query dialect => ?_) fun query => ?_
    · cases dialect <;> simp [answerValidate, Answer.ofValidation, Answer.statementKey]
    · simp [answerValidate, Answer.ofValidation]
  · exact answered_query settings request (fun _ dialect => by cases dialect <;> rfl)
      fun _ => rfl
  · exact .refused rfl

def deliver : Except Refusal Response → Response
  | .ok response => response
  | .error refusal => refusal.response

theorem answered_respond :
    ∃ result, Answered settings request result ∧
      respond settings request = deliver result := by
  rw [respond]
  split
  · exact ⟨.error .notFound, .refused rfl, rfl⟩
  · next route _ =>
      refine ⟨answer settings request route, answered settings request route, ?_⟩
      cases answer settings request route <;> rfl

end

/-! ## Statements -/

section

variable {settings : Settings} {body : CompileBody}

/-- What is asked of the statement of a query, with some time bounds. -/
def Asked (settings : Settings) (body : CompileBody) (result : Except Refusal String) :
    Prop :=
  ∃ startTime endTime query, Built settings body startTime endTime query result

theorem asked_statement {bounds : String × String} {compilation : Compilation}
    (compiled : Compilation.ofText body.dialect body.schema body.query =
      .ok compilation) :
    Asked settings body (statement settings body bounds) := by
  rw [Compilation.ofText_eq] at compiled
  cases parsed : Query.parse body.query with
  | error error =>
      rw [parsed] at compiled
      cases compiled
  | ok query => exact ⟨bounds.1, bounds.2, query, built_statement parsed⟩

inductive Compiled (settings : Settings) (body : CompileBody) :
    Except Refusal Json → Prop
  | refused {refusal : Refusal} (noCode : refusal.code? = none) :
      Compiled settings body (.error refusal)
  | plain (result : Except QueryError Compilation) :
      Compiled settings body (.ok (Answer.ofCompilation body.dialect result none))
  | complete {compilation : Compilation} {text : String}
      (asked : Asked settings body (.ok text)) :
      Compiled settings body
        (.ok (Answer.ofCompilation body.dialect (.ok compilation) (some text)))
  | incomplete {refusal : Refusal} (asked : Asked settings body (.error refusal)) :
      Compiled settings body (.error refusal)

theorem code_of_timeBounds {refusal : Refusal}
    (failed : timeBounds body = .error refusal) : refusal.code? = none := by
  rw [timeBounds] at failed
  split at failed <;> cases failed
  rfl

variable (settings body) in
theorem compiled : Compiled settings body (answerCompile settings body) := by
  cases short : checkLength body.query with
  | error refusal =>
      rw [answerCompile, short]
      exact .refused (code_of_checkLength short)
  | ok =>
      cases bounded : timeBounds body with
      | error refusal =>
          rw [answerCompile, short, bounded]
          exact .refused (code_of_timeBounds bounded)
      | ok bounds =>
          cases bounds with
          | none =>
              rw [answerCompile, short, bounded]
              exact .plain _
          | some bounds =>
              cases result : Compilation.ofText body.dialect body.schema body.query with
              | error error =>
                  rw [answerCompile, short, bounded, result]
                  exact .plain _
              | ok compilation =>
                  rw [answerCompile_of_ok short bounded result]
                  have asked : Asked settings body (statement settings body bounds) :=
                    asked_statement result
                  cases written : statement settings body bounds with
                  | error refusal => exact .incomplete (written ▸ asked)
                  | ok text => exact .complete (written ▸ asked)

theorem asked_of_answer {json : Json} {dialect : Dialect} {text : String}
    (answered : answerCompile settings body = .ok json)
    (found : json.text? (Answer.statementKey dialect) = some text) :
    body.dialect = dialect ∧ Asked settings body (.ok text) := by
  have compiled := compiled settings body
  rw [answered] at compiled
  cases compiled with
  | plain result => simp [Answer.text?_statementKey] at found
  | complete asked =>
      rw [Answer.text?_statementKey] at found
      split at found
      · next same =>
          cases found
          exact ⟨same.symm, asked⟩
      · cases found

theorem asked_of_refusal {refusal : Refusal} {code : FaultCode}
    (failed : answerCompile settings body = .error refusal)
    (coded : refusal.code? = some code) : Asked settings body (.error refusal) := by
  have compiled := compiled settings body
  rw [failed] at compiled
  cases compiled with
  | refused noCode =>
      rw [noCode] at coded
      cases coded
  | incomplete asked => exact asked

theorem Asked.limited {text : String} (asked : Asked settings body (.ok text))
    (sound : settings.Sound) :
    ∃ limit front, settings.Grants body.limit limit ∧ 0 < limit ∧
      text = front ++ body.dialect.limitClause limit := by
  have grants := settings.grants_effectiveLimit body.limit
  have positive := grants.positive sound
  rcases asked with ⟨startTime, endTime, query, built⟩
  generalize written : Except.ok text = result at built
  cases built with
  | @sql table dialect given checked =>
      rw [dialect, Except.ok.inj written]
      have limited : 0 < (sqlRequest settings body table startTime endTime).limit :=
        positive
      rcases Sql.Request.render_limited limited query with ⟨front, ends⟩
      exact ⟨_, front, grants, positive, ends⟩
  | @logsQl first last dialect starts ends =>
      rw [dialect, Except.ok.inj written]
      have limited : 0 < (logsQlRequest settings body first last).limit := positive
      rcases LogsQl.Request.render_limited limited query with ⟨front, ends⟩
      exact ⟨_, front, grants, positive, ends⟩
  | _ => cases written

theorem Asked.zone {refusal : Refusal} (asked : Asked settings body (.error refusal))
    (sound : settings.Sound) (coded : refusal.code? = some .invalidTimezone) :
    body.dialect = .clickhouse ∧
      ∃ zone error, body.timezone = some zone ∧
      Parameter.checkTimezone zone = .error error := by
  rcases asked with ⟨startTime, endTime, query, built⟩
  cases built with
  | missingTable dialect missing => cases coded
  | invalidParameter dialect given failed code =>
      have refused := Sql.Request.timezone_of_code failed (Option.some.inj coded)
      refine ⟨dialect, ?_⟩
      cases named : body.timezone with
      | none =>
          have unnamed :
              Parameter.checkTimezone
                (body.timezone.getD settings.defaultTimezone) = _ := refused
          rw [named, Option.getD_none, sound.timezone] at unnamed
          cases unnamed
      | some zone =>
          have unaccepted :
              Parameter.checkTimezone
                (body.timezone.getD settings.defaultTimezone) = _ := refused
          rw [named, Option.getD_some] at unaccepted
          exact ⟨zone, _, rfl, unaccepted⟩
  | invalidBound dialect failed =>
      have code : QueryError.code _ = .invalidTimezone := Option.some.inj coded
      rcases failed with failed | failed
      · rw [Instant.read_code failed] at code
        cases code
      · rw [Instant.read_code failed] at code
        cases code

end

theorem limited_of_respond {settings : Settings} {request : Request} {dialect : Dialect}
    {text : String} (sound : settings.Sound)
    (found : (respond settings request).text? (Answer.statementKey dialect) =
      some text) :
    ∃ body limit front, readRequest CompileBody.decode request = .ok body ∧
      body.dialect = dialect ∧
      settings.Grants body.limit limit ∧ 0 < limit ∧
      text = front ++ dialect.limitClause limit := by
  rcases answered_respond settings request with ⟨result, answered, same⟩
  rw [same] at found
  cases answered with
  | @compiled body json read answered =>
      rcases asked_of_answer answered found with ⟨rfl, asked⟩
      rcases asked.limited sound with ⟨limit, front, grants, positive, ends⟩
      exact ⟨body, limit, front, read, rfl, grants, positive, ends⟩
  | uncompiled read failed => cases (Refusal.text?_response _ dialect).symm.trans found
  | unrelated noStatement noCode => cases (noStatement dialect).symm.trans found
  | refused noCode => cases (Refusal.text?_response _ dialect).symm.trans found

theorem zone_of_respond {settings : Settings} {request : Request}
    (sound : settings.Sound)
    (found : (respond settings request).text? "code" =
      some FaultCode.invalidTimezone.name) :
    ∃ body zone error, readRequest CompileBody.decode request = .ok body ∧
      body.dialect = .clickhouse ∧ body.timezone = some zone ∧
      Parameter.checkTimezone zone = .error error := by
  rcases answered_respond settings request with ⟨result, answered, same⟩
  rw [same] at found
  cases answered with
  | @compiled body json read answered =>
      have compiled := compiled settings body
      rw [answered] at compiled
      cases compiled with
      | plain result => cases (Answer.text?_code _ _ _).symm.trans found
      | complete asked => cases (Answer.text?_code _ _ _).symm.trans found
  | @uncompiled body refusal read failed =>
      rcases Option.map_eq_some_iff.mp (refusal.code_response.symm.trans found) with
        ⟨code, coded, name⟩
      rw [FaultCode.name_inj name] at coded
      rcases (asked_of_refusal failed coded).zone sound coded with
        ⟨dialect, zone, error, named, refused⟩
      exact ⟨body, zone, error, read, dialect, named, refused⟩
  | unrelated noStatement noCode => cases noCode.symm.trans found
  | @refused refusal noCode =>
      rw [deliver, refusal.code_response, noCode] at found
      cases found

/-- With settings from the environment, every statement that is answered is limited: by
the limit asked for if that is positive, otherwise by the one in the settings. A request
is refused for a zone only if it names that zone. -/
theorem respond_limited {lookup : String → Option String} {settings : Settings}
    (loaded : Settings.ofEnvironment lookup = .ok settings) (request : Request) :
    (∀ dialect text,
      (respond settings request).text? (Answer.statementKey dialect) = some text →
      ∃ body limit front, readRequest CompileBody.decode request = .ok body ∧
        body.dialect = dialect ∧ settings.Grants body.limit limit ∧ 0 < limit ∧
        text = front ++ dialect.limitClause limit) ∧
    ((respond settings request).text? "code" = some FaultCode.invalidTimezone.name →
      ∃ body zone error, readRequest CompileBody.decode request = .ok body ∧
        body.dialect = .clickhouse ∧ body.timezone = some zone ∧
        Parameter.checkTimezone zone = .error error) := by
  have sound := Settings.sound_of_load loaded
  exact ⟨fun _ _ => limited_of_respond sound, zone_of_respond sound⟩

def sparseEnvironment (name : String) : Option String :=
  if name = "LOGCHEF_DEFAULT_LIMIT" then some "+250" else none

def postedRequest (entries : String) : Request :=
  { method := "POST"
    target := Route.compile.path
    contentType := some "application/json"
    body :=
      ("\x7b\"query\":\"a=1\",\"table\":\"t\"," ++
        "\"start_time\":\"2025-01-01 00:00:00\"," ++
        "\"end_time\":\"2025-01-02 00:00:00\"," ++ entries ++ "\x7d").toUTF8 }

theorem respond_limited_overdrawn :
    Settings.ofEnvironment sparseEnvironment = .ok { defaultLimit := 250 } ∧
      (∃ text body limit front,
        (respond { defaultLimit := 250 } (postedRequest "\"limit\":-3")).text?
          "full_sql" = some text ∧
        readRequest CompileBody.decode (postedRequest "\"limit\":-3") = .ok body ∧
        Settings.Grants { defaultLimit := 250 } body.limit limit ∧ 0 < limit ∧
        text = front ++ Dialect.limitClause .clickhouse limit) ∧
      (respond { defaultLimit := 250 } (postedRequest "\"timezone\":\"a//b\"")).text?
        "code" = some "INVALID_TIMEZONE" ∧
      ∃ body zone error,
        readRequest CompileBody.decode (postedRequest "\"timezone\":\"a//b\"") =
          .ok body ∧
        body.timezone = some zone ∧ Parameter.checkTimezone zone = .error error := by
  have loaded :
      Settings.ofEnvironment sparseEnvironment = .ok { defaultLimit := 250 } := by
    decide +kernel
  have answered :
      ((respond { defaultLimit := 250 } (postedRequest "\"limit\":-3")).text?
        "full_sql").isSome = true := by
    decide +kernel
  have refused :
      (respond { defaultLimit := 250 } (postedRequest "\"timezone\":\"a//b\"")).text?
        "code" = some "INVALID_TIMEZONE" := by
    decide +kernel
  rcases Option.isSome_iff_exists.mp answered with ⟨text, found⟩
  rcases (respond_limited loaded (postedRequest "\"limit\":-3")).1 .clickhouse text
    found with ⟨body, limit, front, read, -, grants, positive, ends⟩
  rcases (respond_limited loaded (postedRequest "\"timezone\":\"a//b\"")).2 refused with
    ⟨other, zone, error, otherRead, -, named, unaccepted⟩
  exact ⟨loaded, ⟨text, body, limit, front, found, read, grants, positive, ends⟩,
    refused, other, zone, error, otherRead, named, unaccepted⟩

end Service

end LogQuery
