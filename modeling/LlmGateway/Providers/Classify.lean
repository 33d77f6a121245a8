import LlmGateway.Codec.Floats
import LlmGateway.Providers.Deltas

/-!
# OpenRouter's ladder

One ladder sorts what OpenRouter says has gone wrong, and three callers come through
it: a response with an error status, a response without one whose body is an error
object, and an event of a stream that is one. It asks the `code` of the body for some
kinds, and the status of the response for all of them; only the first caller has a
status to ask.
-/

namespace LlmGateway

namespace Providers

namespace OpenRouter

open Floats Json Text

variable {F : Type}

/-! ## The fields of an error -/

/-- The code, the message and the metadata of an error. -/
abbrev ErrorFields (F : Type) : Type := Option String × Option String × List (String × Value F)

/-- A member of a body, where it is a string. -/
def stringOf : Option (Value F) → Option String
  | some (.str s) => some s
  | _ => none

/-- `code`, a string; OpenRouter sends an integer. -/
def codeOf : Option (Value F) → Option String
  | some (.str s) => some s
  | some (.int n) => some (String.ofList (writeInt n))
  | _ => none

/-- `_read_error_fields`. -/
def readErrorFields : Option (Value F) → ErrorFields F
  | none => (none, none, [])
  | some body =>
    match body.get? "error" with
    | some (.str error) => (none, some error, [])
    | some (.obj error) =>
      (codeOf ((Value.obj error).get? "code"), stringOf ((Value.obj error).get? "message"),
        match (Value.obj error).get? "metadata" with
        | some (.obj metadata) => metadata
        | _ => [])
    | _ => (none, stringOf (body.get? "message"), [])

/-- `_looks_like_moderation`. -/
def looksLikeModeration (metadata : List (String × Value F)) : Bool :=
  metadata.any fun member => member.1 = "reasons" || member.1 = "flagged_input"

/-- `_CONTEXT_ERROR_PHRASES`. -/
def contextErrorPhrases : List String :=
  ["reduce the length", "context length", "maximum context", "too long for model", "token limit"]

/-- `_looks_like_context_overflow`, over `str.lower`. -/
def looksLikeContextOverflow (lower : String → String) : Option String → Bool
  | none => false
  | some message =>
    message ≠ "" &&
      contextErrorPhrases.any fun phrase =>
        (lower message).toList.tails.any (phrase.toList.isPrefixOf ·)

/-! ## The limit in a message -/

/-- The phrases of `_LIMIT_TOKENS_RE`. -/
def limitPhrases : List String :=
  ["maximum context length is", "context length of", "limit is", "limit"]

/-- Whether `re.IGNORECASE` takes a character for a letter of a phrase: the dotted and the dotless
`i` and the long `s` stand for theirs too. -/
def sameLetter (c letter : Char) : Bool :=
  c.toLower = letter || (letter = 'i' && (c = 'İ' || c = 'ı')) || (letter = 's' && c = 'ſ')

/-- What is behind a phrase, in a text that begins with it. -/
def behind : List Char → List Char → Option (List Char)
  | [], text => some text
  | _ :: _, [] => none
  | letter :: phrase, c :: text => if sameLetter c letter then behind phrase text else none

/-- `\s+(\d[\d_,]*)` at the beginning of a text: the digits of the group. -/
def limitGroup (text : List Char) : Option (List ℕ) :=
  match text.span isSpace with
  | (_ :: _, c :: rest) =>
    if (digit c).isSome then
      some ((c :: rest.takeWhile fun c => (digit c).isSome || c = '_' || c = ',').filterMap digit)
    else none
  | _ => none

/-- `_LIMIT_TOKENS_RE.search`: the digits of the group. -/
def searchLimit : List Char → Option (List ℕ)
  | [] => none
  | c :: text =>
    (limitPhrases.findSome? fun phrase => (behind phrase.toList (c :: text)).bind limitGroup)
      <|> searchLimit text

/-- `_read_limit_tokens`. More digits than `int` takes are no limit. -/
def readLimitTokens : Option String → Option Int
  | none => none
  | some message =>
    match searchLimit message.toList with
    | none => none
    | some digits => if 4300 < digits.length then none else some (Nat.ofDigits 10 digits.reverse)

/-! ## The ladder -/

/-- `_CREDIT_CODES`. -/
def creditCodes : List String := ["402", "insufficient_credits", "insufficient_quota"]

/-- `_RATE_LIMIT_CODES`. -/
def rateLimitCodes : List String := ["429", "rate_limit_exceeded", "rate_limited"]

/-- `_CONTEXT_ERROR_CODES`. -/
def contextErrorCodes : List String := ["context_length_exceeded", "string_above_max_length"]

/-- `_CONTENT_FILTER_CODES`. -/
def contentFilterCodes : List String := ["content_filter", "content_policy_violation"]

/-- What the ladder takes of a response. -/
structure Response (F : Type) where
  statusCode : Nat
  /-- The body, if it is JSON. -/
  json : Option (Value F)
  /-- `_read_retry_after`, of the headers. -/
  retryAfterS : Option Seconds := none
  /-- `_model_from_request`. -/
  requestModel : Option String := none

/-- `_json_object`. -/
def Response.jsonObject (response : Response F) : Option (Value F) :=
  match response.json with
  | some (.obj members) => some (.obj members)
  | _ => none

/-- The ladder, from the status on. -/
def statusRung (lower : String → String) (status : Nat) (retryAfterS : Option Seconds)
    (message : Option String) (metadata : List (String × Value F)) : ProviderError.Kind :=
  if status = 402 then .rateLimited retryAfterS
  else if status = 403 ∧ looksLikeModeration metadata then .contentFiltered
  else if status = 401 ∨ status = 403 then .authFailed
  else if status = 429 then .rateLimited retryAfterS
  else if status = 400 ∨ status = 422 then
    if looksLikeContextOverflow lower message then .contextTooLong (readLimitTokens message)
    else .badRequest
  else if status = 404 then .badRequest
  -- A server error, and whatever else there may be.
  else .unavailable

/-- The kind an error is sorted as. The code of the body is asked before the status. -/
def rung (lower : String → String) (status : Nat) (retryAfterS : Option Seconds) :
    ErrorFields F → ProviderError.Kind
  | (code, message, metadata) =>
    if code.any creditCodes.contains then .rateLimited retryAfterS
    else if code.any rateLimitCodes.contains then .rateLimited retryAfterS
    else if code.any contextErrorCodes.contains then .contextTooLong (readLimitTokens message)
    else if code.any contentFilterCodes.contains then .contentFiltered
    else statusRung lower status retryAfterS message metadata

/-- `_classify`. -/
def classify (lower : String → String) (status : Nat) (body : Option (Value F))
    (model : Option String) (response : Option (Response F)) : ProviderError where
  kind := rung lower status (response.bind (·.retryAfterS)) (readErrorFields body)
  message := ((readErrorFields body).2.1.filter (· ≠ "")).getD
    ("openrouter returned HTTP " ++ toString status)
  provider := "openrouter"
  model := ((model.filter (· ≠ "")) <|> ((response.bind (·.requestModel)).filter (· ≠ ""))).getD
    "unknown"
  statusCode := some status

/-- `parse_error`, of a response. -/
def parseError (lower : String → String) (model : Option String) (response : Response F) :
    ProviderError :=
  classify lower response.statusCode response.jsonObject model (some response)

/-! ## The three callers -/

/-- What is read outside the ladder, and the ladder. -/
def ladder (isZero : F → Bool) (str : Value F → String) (lower : String → String) :
    Readings F where
  isZero := isZero
  str := str
  classify := fun status body model => classify lower status (some body) (some model) none

/-- `complete`, from the response on: the text and the finish reason. -/
def complete (isZero : F → Bool) (str : Value F → String) (lower : String → String)
    (model : String) (response : Response F) : Except Exn (String × String) :=
  if 400 ≤ response.statusCode then .error (.provider (parseError lower (some model) response))
  else
    match response.jsonObject with
    | none => .error (emptyResponse "openrouter" model "response body was not a JSON object")
    | some body => readChoice (ladder isZero str lower) response.statusCode model body

/-- The normalized class of what was raised. -/
def raisedClass {α : Type} : Except Exn α → Option String
  | .error (.provider e) => some e.code
  | _ => none

/-- **One ladder**: a body is sorted alike whether it comes under its own status, under a status
of success, or as an event, and whatever the headers say. -/
def SortedAlike (isZero : F → Bool) (str : Value F → String) (lower : String → String)
    (model : String) (c : Nat) (body : Value F) : Prop :=
  ∃ cls,
    (∀ response : Response F, response.statusCode = c → response.json = some body →
      raisedClass (complete isZero str lower model response) = some cls) ∧
    (∀ response : Response F, response.statusCode = 200 → response.json = some body →
      raisedClass (complete isZero str lower model response) = some cls) ∧
    raisedClass (onEvent (ladder isZero str lower) model body) = some cls

/-! ## Codes -/

variable {n : Int} {s : String}

theorem ofList_writeInt_ne (h : s.toList.any (fun c => !isNumeral c) = true) :
    String.ofList (writeInt n) ≠ s := by
  rintro rfl
  obtain ⟨c, hc, hnot⟩ := List.any_eq_true.mp h
  rw [String.toList_ofList] at hc
  rw [isNumeral_writeInt hc] at hnot
  cases hnot

theorem ofList_writeInt_inj {m : Int} :
    String.ofList (writeInt n) = String.ofList (writeInt m) ↔ n = m := by
  constructor
  · intro h
    have hlists := congrArg String.toList h
    rw [String.toList_ofList, String.toList_ofList] at hlists
    exact writeInt_inj hlists
  · rintro rfl
    rfl

/-- An integer is one of the codes of a list exactly when it is the one that list has. -/
theorem contains_codes {m : Int} {named : List String}
    (h : ∀ name ∈ named, name.toList.any (fun c => !isNumeral c) = true) :
    (String.ofList (writeInt m) :: named).contains (String.ofList (writeInt n)) =
      decide (n = m) := by
  have hnamed : String.ofList (writeInt n) ∉ named :=
    fun hmem => ofList_writeInt_ne (h _ hmem) rfl
  rw [Bool.eq_iff_iff, List.contains_iff_mem, List.mem_cons, decide_eq_true_iff,
    ofList_writeInt_inj]
  exact or_iff_left hnamed

theorem not_contains_codes {named : List String}
    (h : ∀ name ∈ named, name.toList.any (fun c => !isNumeral c) = true) :
    named.contains (String.ofList (writeInt n)) = false := by
  rw [Bool.eq_false_iff]
  intro hmem
  exact ofList_writeInt_ne (h _ (List.contains_iff_mem.mp hmem)) rfl

/-! ## One error, three ways -/

section

variable {lower : String → String} {retryAfterS : Option Seconds}

/-- Of the integers the code is asked for two; for all others it is the status. -/
theorem rung_codeOf_int (status : Nat) (message : Option String)
    (metadata : List (String × Value F)) :
    rung lower status retryAfterS (codeOf (.some (.int n : Value F)), message, metadata) =
      if n = 402 ∨ n = 429 then .rateLimited retryAfterS
      else statusRung lower status retryAfterS message metadata := by
  have hcredit : creditCodes.contains (String.ofList (writeInt n)) = decide (n = 402) :=
    contains_codes (m := 402) (by decide)
  have hrate : rateLimitCodes.contains (String.ofList (writeInt n)) = decide (n = 429) :=
    contains_codes (m := 429) (by decide)
  have hcontext : contextErrorCodes.contains (String.ofList (writeInt n)) = false :=
    not_contains_codes (by decide)
  have hfilter : contentFilterCodes.contains (String.ofList (writeInt n)) = false :=
    not_contains_codes (by decide)
  simp only [rung, codeOf, Option.any_some, hcredit, hrate, hcontext, hfilter]
  by_cases h402 : n = 402 <;> by_cases h429 : n = 429 <;> simp [h402, h429]

/-- The statuses the ladder has no rung for. -/
theorem statusRung_eq_unavailable_iff {status : Nat} {message : Option String}
    {metadata : List (String × Value F)} :
    statusRung lower status retryAfterS message metadata = .unavailable ↔
      status ∉ [400, 401, 402, 403, 404, 422, 429] := by
  simp only [List.mem_cons, List.not_mem_nil, or_false]
  unfold statusRung
  split_ifs <;> simp only [false_iff, true_iff] <;> omega

theorem code_eq_unavailable_iff {e : ProviderError} :
    e.code = "provider_unavailable" ↔ e.kind = .unavailable := by
  unfold ProviderError.code
  split <;> simp_all

end

section

variable (isZero : F → Bool) (str : Value F → String) (lower : String → String) (model : String)
  {c : Nat} {error members : List (String × Value F)}

theorem raisedClass_complete_error {response : Response F} (hc : 400 ≤ response.statusCode) :
    raisedClass (complete isZero str lower model response) =
      some (parseError lower (some model) response).code := by
  simp only [complete, if_pos hc, raisedClass]

theorem raisedClass_complete_success {response : Response F}
    (herror : (Value.obj members).get? "error" = some (.obj error))
    (hstatus : response.statusCode = 200) (hjson : response.json = some (.obj members)) :
    raisedClass (complete isZero str lower model response) =
      some (classify lower 200 (some (.obj members)) (some model) none).code := by
  simp only [complete, Response.jsonObject, readChoice, herror, ladder, raisedClass, hstatus,
    hjson, show ¬ 400 ≤ 200 by omega, if_false]

theorem raisedClass_onEvent (herror : (Value.obj members).get? "error" = some (.obj error)) :
    raisedClass (onEvent (ladder isZero str lower) model (.obj members)) =
      some (classify lower 200 (some (.obj members)) (some model) none).code := by
  simp only [onEvent, herror, ladder, raisedClass]

/-- The kind of an error whose code is an integer. -/
theorem kind_classify {n : Int} (status : Nat) (model : Option String)
    (response : Option (Response F))
    (herror : (Value.obj members).get? "error" = some (.obj error))
    (hcode : (Value.obj error).get? "code" = some (.int n)) :
    ∃ (message : Option String) (metadata : List (String × Value F)),
    (classify lower status (some (.obj members)) model response).kind =
      if n = 402 ∨ n = 429 then .rateLimited (response.bind (·.retryAfterS))
      else statusRung lower status (response.bind (·.retryAfterS)) message metadata := by
  have hfirst : (readErrorFields (some (.obj members))).1 = codeOf (some (.int n : Value F)) := by
    simp only [readErrorFields, herror, hcode]
  refine ⟨(readErrorFields (some (.obj members))).2.1, (readErrorFields (some (.obj members))).2.2,
    ?_⟩
  rw [← rung_codeOf_int, ← hfirst]
  rfl

/-- The kind of such an error when it comes under a status of its own. -/
theorem kind_parseError {n : Int} {response : Response F}
    (hjson : response.json = some (.obj members))
    (herror : (Value.obj members).get? "error" = some (.obj error))
    (hcode : (Value.obj error).get? "code" = some (.int n)) :
    ∃ (message : Option String) (metadata : List (String × Value F)),
    (parseError lower (some model) response).kind =
      if n = 402 ∨ n = 429 then .rateLimited response.retryAfterS
      else statusRung lower response.statusCode response.retryAfterS message metadata := by
  obtain ⟨message, metadata, hkind⟩ :=
    kind_classify lower response.statusCode (some model) (some response) herror hcode
  refine ⟨message, metadata, ?_⟩
  simp only [parseError, Response.jsonObject, hjson, hkind, Option.bind_some]

/-- A code that the ladder names says by itself what the error is. -/
theorem sortedAlike_of_named (hc : 400 ≤ c)
    (herror : (Value.obj members).get? "error" = some (.obj error))
    (hcode : (Value.obj error).get? "code" = some (.int c))
    (hnamed : (c : Int) = 402 ∨ (c : Int) = 429) :
    SortedAlike isZero str lower model c (.obj members) := by
  have hclass : (classify lower 200 (some (.obj members)) (some model) none).code =
      "rate_limited" := by
    obtain ⟨message, metadata, hbody⟩ := kind_classify lower 200 (some model) none herror hcode
    rw [if_pos hnamed] at hbody
    simp only [ProviderError.code, hbody]
  refine ⟨"rate_limited", ?_, fun response hstatus hjson => ?_, ?_⟩
  · rintro response rfl hjson
    obtain ⟨message, metadata, hown⟩ := kind_parseError lower model hjson herror hcode
    rw [if_pos hnamed] at hown
    rw [raisedClass_complete_error _ _ _ _ hc]
    simp only [ProviderError.code, hown]
  · rw [raisedClass_complete_success _ _ _ _ herror hstatus hjson, hclass]
  · rw [raisedClass_onEvent _ _ _ _ herror, hclass]

/-- Any other code is an outage inside a success, and under a status of its own one if the ladder
has no rung for it. -/
theorem sortedAlike_iff_of_unnamed (hc : 400 ≤ c)
    (herror : (Value.obj members).get? "error" = some (.obj error))
    (hcode : (Value.obj error).get? "code" = some (.int c))
    (hnamed : ¬ ((c : Int) = 402 ∨ (c : Int) = 429)) :
    SortedAlike isZero str lower model c (.obj members) ↔ c ∉ [400, 401, 403, 404, 422] := by
  have hclass : (classify lower 200 (some (.obj members)) (some model) none).code =
      "provider_unavailable" := by
    obtain ⟨message, metadata, hbody⟩ := kind_classify lower 200 (some model) none herror hcode
    rw [if_neg hnamed] at hbody
    rw [code_eq_unavailable_iff, hbody, statusRung_eq_unavailable_iff]
    decide
  have hown : ∀ response : Response F, response.statusCode = c →
      response.json = some (.obj members) →
      ((parseError lower (some model) response).code = "provider_unavailable" ↔
        c ∉ [400, 401, 403, 404, 422]) := by
    rintro response rfl hjson
    obtain ⟨message, metadata, hkind⟩ := kind_parseError lower model hjson herror hcode
    rw [if_neg hnamed] at hkind
    rw [code_eq_unavailable_iff, hkind, statusRung_eq_unavailable_iff]
    simp only [List.mem_cons, List.not_mem_nil, or_false]
    omega
  have hevent := raisedClass_onEvent isZero str lower model herror
  rw [hclass] at hevent
  constructor
  · rintro ⟨cls, hstatus, -, hcls⟩
    have hstatus := hstatus { statusCode := c, json := some (.obj members) } rfl rfl
    rw [raisedClass_complete_error _ _ _ _ hc] at hstatus
    rw [hevent] at hcls
    exact (hown _ rfl rfl).mp ((Option.some.inj hstatus).trans (Option.some.inj hcls).symm)
  · intro hlist
    refine ⟨"provider_unavailable", ?_, fun response hstatus hjson => ?_, hevent⟩
    · intro response hstatus hjson
      rw [raisedClass_complete_error _ _ _ _ (hstatus ▸ hc),
        (hown response hstatus hjson).mpr hlist]
    · rw [raisedClass_complete_success _ _ _ _ herror hstatus hjson, hclass]

/-- **The ladder does not drift** between the three for an error that has a status for its code,
exactly when that is no status the ladder sorts by and the codes do not name. -/
theorem sortedAlike_iff (hc : 400 ≤ c)
    (herror : (Value.obj members).get? "error" = some (.obj error))
    (hcode : (Value.obj error).get? "code" = some (.int c)) :
    SortedAlike isZero str lower model c (.obj members) ↔ c ∉ [400, 401, 403, 404, 422] := by
  by_cases hnamed : (c : Int) = 402 ∨ (c : Int) = 429
  · refine iff_of_true (sortedAlike_of_named isZero str lower model hc herror hcode hnamed) ?_
    simp only [List.mem_cons, List.not_mem_nil, or_false]
    omega
  · exact sortedAlike_iff_of_unnamed isZero str lower model hc herror hcode hnamed

end

/-- A body with an error of a code, a message and metadata. -/
def errorBody (code : Int) (message : String) (metadata : List (String × Value Unit)) :
    Value Unit :=
  .obj [("error", .obj [("code", .int code), ("message", .str message),
    ("metadata", .obj metadata)])]

/-- An upstream that is down. -/
theorem sortedAlike_badGateway :
    SortedAlike (fun _ => true) (fun _ => "") String.toLower "llama" 502
      (errorBody 502 "Bad gateway" []) :=
  (sortedAlike_iff (fun _ => true) (fun _ => "") String.toLower "llama" (c := 502) (by omega)
    rfl rfl).mpr (by decide)

/-- A refusal that comes under its own status is one, and inside a success an outage. -/
theorem not_sortedAlike :
    ¬ SortedAlike (fun _ => true) (fun _ => "") String.toLower "llama" 403
      (errorBody 403 "Input flagged" [("reasons", .arr [.str "violence"])]) := by
  rintro ⟨cls, hown, -, hevent⟩
  have hrefusal : some cls = some "content_filtered" :=
    (hown { statusCode := 403, json := some _ } rfl rfl).symm.trans (by decide)
  have houtage : some cls = some "provider_unavailable" := hevent.symm.trans (by decide)
  exact absurd (hrefusal.symm.trans houtage) (by decide)

end OpenRouter

end Providers

end LlmGateway
