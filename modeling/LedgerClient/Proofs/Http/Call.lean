import Mathlib
import LedgerClient.Proofs.Fault
import LedgerClient.Http.Client
import LedgerClient.Proofs.Http.Response

/-!
# Calls over HTTP

A call is answered by the body of its own response, so nothing but the frame in it can be taken for
the answer. The id of the frame is looked at only when it carries a result: a result with another
id, or with none, is refused. An error is passed on before the id is compared, so a call fails with
the error of the service also where the frame names another request.

Fixed texts are evaluated by `cbv` here, whose equations for strings and bytes are spread over the
whole library.

## Main definitions

* `Http.Client.Receives`, `Http.Client.Gets`: a call is sent, and its response has a body, which is
  a single frame
* `Rpc.Frame.IsStray`: an error that names another request

## Main results

* `Rpc.Request.confined_render`: a request that has no text is refused by the codec
* `Http.Client.sent_call`, `Http.Client.call_of_cancelled`: whether a call is sent
* `Http.Client.ask_cases`: a single frame comes, or the call fails without the service
* `Http.Client.answer_own_iff`: a call takes only its own response just when no error is stray
* `Http.Client.ask_stray`: a call takes an error that names another request
-/

namespace LedgerClient

open Fault (Confined IsCodec)

/-! ## Requests -/

namespace Rpc

/-- The fault is not what the service says to a request. -/
def Unsaid (fault : Fault) : Prop :=
  ∀ error, fault ≠ .server error

/-- The fault is one of a text that is no payload, or that cannot be read: it is not UTF-8 where it
should be, or nests too deep. -/
def Unreadable (fault : Fault) : Prop :=
  IsCodec fault ∨ ∃ flaw, fault = .misuse (.text flaw)

theorem unsaid_of_isCodec {fault : Fault} (h : IsCodec fault) : Unsaid fault := by
  obtain ⟨cause, rfl⟩ := h
  exact fun error => nofun

theorem Unreadable.unsaid {fault : Fault} (h : Unreadable fault) : Unsaid fault := by
  obtain hcodec | ⟨flaw, rfl⟩ := h
  · exact unsaid_of_isCodec hcodec
  · exact fun error => nofun

theorem confined_blob (blob : Blob) : Confined IsCodec blob.toJson := by
  rw [Blob.toJson]
  split
  · exact Confined.error ⟨_, rfl⟩
  · exact Confined.ok _
  · exact Confined.ok _

-- Parameters nest in lists and objects, so the three writers are looked at together.
mutual

theorem confined_param : (p : Param) → Confined IsCodec p.toJson
  | .plain _ => Confined.ok _
  | .key _ _ => Confined.ok _
  | .blob blob => confined_blob blob
  | .settings _ => Confined.ok _
  | .filter _ => Confined.ok _
  | .list items => (confined_params items).map
  | .obj members => (confined_members members).map

theorem confined_params : (items : List Param) → Confined IsCodec (paramsJson items)
  | [] => Confined.ok _
  | item :: items =>
    (confined_param item).bind fun _ => (confined_params items).bind fun _ => Confined.ok _

theorem confined_members : (members : List (String × Param)) →
    Confined IsCodec (membersJson members)
  | [] => Confined.ok _
  | (_, item) :: members =>
    (confined_param item).bind fun _ => (confined_members members).bind fun _ => Confined.ok _

end

/-- A request that has no text is refused by the codec. -/
theorem Request.confined_render (request : Request) : Confined IsCodec request.render :=
  ((confined_params request.params).bind fun _ => Confined.ok _).bind fun _ => Confined.ok _

/-! ## Answers -/

section Answers

variable {id : Nat} {body result : Bytes} {error : ServerFault} {frame : Frame} {host : Host}

/-- An error that names another request than the one with this id. -/
def Frame.IsStray (id : Nat) (frame : Frame) : Prop :=
  frame.error ≠ none ∧ frame.id ≠ none ∧ frame.id ≠ some (id : Int)

theorem Payload.confined_read (body : Bytes) (host : Host) :
    Confined Unreadable (Payload.read body host) := by
  rw [Payload.read]
  cases (Json.Document.read body host.nesting).using Payload.ofTree with
  | ok payload => exact Confined.ok _
  | error obstacle =>
    cases obstacle with
    | form => exact Confined.error (.inl ⟨_, rfl⟩)
    | text flaw => exact Confined.error (.inr ⟨flaw, rfl⟩)

/-- A body that is not a single frame is refused. -/
theorem Payload.read_answer_of_not_single
    (h : ∀ frame, Payload.read body host ≠ .ok (.single frame)) :
    ∃ fault, Payload.read body host >>= Payload.answer id = .error fault ∧ Unreadable fault := by
  cases hread : Payload.read body host with
  | error fault => exact ⟨fault, rfl, Payload.confined_read body host fault hread⟩
  | ok payload =>
    cases payload with
    | batch frames => exact ⟨_, rfl, .inl ⟨_, rfl⟩⟩
    | single frame => exact absurd hread (h frame)

/-- A frame gives its result if it carries the id and no error. -/
theorem Payload.answer_single_eq_ok : Payload.answer id (.single frame) = .ok result ↔
    frame.error = none ∧ frame.id = some (id : Int) ∧ frame.result = result := by
  rw [Payload.answer]
  split
  · next error herror => exact iff_of_false nofun fun h => nomatch herror.symm.trans h.1
  · next hnone =>
    rw [and_iff_right hnone]
    split
    · next hid =>
      rw [and_iff_right hid]
      change Except.ok frame.result = .ok result ↔ _
      rw [Except.ok.injEq]
    · next hid => exact iff_of_false nofun fun h => hid h.1

/-- A frame with an error gives this error, whatever its id. -/
theorem Payload.answer_single_eq_server :
    Payload.answer id (.single frame) = .error (.server error) ↔ frame.error = some error := by
  rw [Payload.answer]
  split
  · next other hother =>
    rw [hother]
    constructor
    · intro h
      cases h
      rfl
    · intro h
      cases h
      rfl
  · next hnone =>
    rw [hnone]
    split
    · exact iff_of_false nofun nofun
    · exact iff_of_false nofun nofun

/-- A result that carries another id, or none, is refused. -/
theorem Payload.answer_of_other (hnone : frame.error = none) (hid : frame.id ≠ some (id : Int)) :
    Payload.answer id (.single frame) = .error (.codec (.replyId frame.id id)) := by
  rw [Payload.answer, hnone]
  exact if_neg hid

end Answers

end Rpc

/-! ## Responses -/

namespace Http

open Rpc (Call Frame Param Request Unsaid)

/-- A response is refused for its size or its status. -/
theorem Response.confined_body (limit : Option Nat) (response : Response) :
    Confined Unsaid (response.body limit) := by
  obtain ⟨status, chunks⟩ := response
  by_cases hexceeds : Exceeds limit chunks.flatten.length
  · obtain ⟨cause, hlimit⟩ := body_of_exceeds status hexceeds
    rw [hlimit]
    exact Confined.error fun error => nofun
  · rw [body_of_not_exceeds hexceeds]
    split
    · exact Confined.error fun error => nofun
    · exact Confined.ok _

theorem expires_unsaid {timeout : Option Float} {elapsed : Float} {fault : Fault}
    (h : expires timeout elapsed = some fault) : Unsaid fault := by
  unfold expires at h
  split at h
  · split at h
    · cases h
      exact fun error => nofun
    · cases h
  · cases h

theorem wait_unsaid {timeout : Option Float} {circumstances : Circumstances} {fault : Fault}
    (h : wait timeout circumstances = some fault) : Unsaid fault := by
  unfold wait at h
  split at h
  · next hnow =>
    cases h
    exact expires_unsaid hnow
  · split at h
    · cases h
      exact fun error => nofun
    · exact expires_unsaid h

/-! ## Calls -/

namespace Client

variable {client : Client} {method text : String} {params : List Param}
  {circumstances : Circumstances} {body : Bytes} {frame : Frame} {x : Except Fault Bytes}

theorem post_eq_ok : (client.post text circumstances).outcome = some (.ok body) ↔
    circumstances.cancellation ≠ .before ∧ ∃ response,
      circumstances.delivery = .response response ∧
      response.body (some client.config.responseLimit) = .ok body := by
  unfold post
  split
  · next hbefore => exact iff_of_false nofun fun h => h.1 hbefore
  · next hsent =>
    split
    · next response hdelivery =>
      constructor
      · intro h
        exact ⟨hsent, response, hdelivery, Option.some.inj h⟩
      · rintro ⟨-, _, hother, hbody⟩
        cases hdelivery.symm.trans hother
        exact congrArg some hbody
    · next hdelivery =>
      refine iff_of_false nofun ?_
      rintro ⟨-, _, hother, -⟩
      cases hdelivery.symm.trans hother
    · next hdelivery =>
      refine iff_of_false nofun ?_
      rintro ⟨-, _, hother, -⟩
      cases hdelivery.symm.trans hother
    · next hdelivery =>
      refine iff_of_false (fun h => ?_) ?_
      · obtain ⟨fault, -, hfault⟩ := Option.map_eq_some_iff.mp h
        cases hfault
      · rintro ⟨-, _, hother, -⟩
        cases hdelivery.symm.trans hother

/-- Sending fails without a word of the service. -/
theorem confined_post (h : (client.post text circumstances).outcome = some x) :
    Confined Unsaid x := by
  unfold post at h
  split at h
  · cases h
    exact Confined.error fun error => nofun
  · split at h
    · cases h
      exact Response.confined_body _ _
    · cases h
      exact Confined.error fun error => nofun
    · cases h
      exact Confined.error fun error => nofun
    · obtain ⟨fault, hwait, rfl⟩ := Option.map_eq_some_iff.mp h
      exact Confined.error (wait_unsaid hwait)

/-- A text is sent unless the caller has cancelled before. -/
theorem sent_post (h : circumstances.cancellation ≠ .before) :
    (client.post text circumstances).sent = some text := by
  unfold post
  rw [if_neg h]
  split <;> rfl

/-- A call is sent as the text of its request. -/
theorem sent_call {α : Type} {call : Call α} (h : circumstances.cancellation ≠ .before)
    (hrender : Request.render ⟨call.method, call.params, client.nextId⟩ = .ok text) :
    (client.call call circumstances).2.sent = some text := by
  unfold Client.call ask
  dsimp only
  rw [hrender]
  exact sent_post h

/-- A call that the caller has cancelled before fails without being sent. -/
theorem call_of_cancelled {α : Type} (call : Call α) (h : circumstances.cancellation = .before) :
    (client.call call circumstances).2.sent = none ∧
      ∃ fault, (client.call call circumstances).2.outcome = some (.error fault) := by
  unfold Client.call ask post
  rw [h]
  dsimp only
  cases Request.render ⟨call.method, call.params, client.nextId⟩ with
  | error fault => exact ⟨rfl, fault, rfl⟩
  | ok text => exact ⟨rfl, .cancelled, rfl⟩

/-- A call is sent, and its response has a body that is accepted. -/
structure Receives (client : Client) (method : String) (params : List Param)
    (circumstances : Circumstances) (body : Bytes) : Prop where
  /-- The request has a text. -/
  rendered : ∃ text, Request.render ⟨method, params, client.nextId⟩ = .ok text
  /-- The caller has not cancelled before. -/
  sent : circumstances.cancellation ≠ .before
  /-- The response is accepted. -/
  accepted : ∃ response, circumstances.delivery = .response response ∧
    response.body (some client.config.responseLimit) = .ok body

/-- The body that a call receives is a single frame. -/
def Gets (client : Client) (method : String) (params : List Param) (circumstances : Circumstances)
    (frame : Frame) : Prop :=
  ∃ body, client.Receives method params circumstances body ∧
    Rpc.Payload.read body client.config.host = .ok (.single frame)

/-- What comes of a body. -/
theorem outcome_of_receives (h : client.Receives method params circumstances body) :
    (client.ask method params circumstances).outcome =
      some (Rpc.Payload.read body client.config.host >>= Rpc.Payload.answer client.nextId) := by
  obtain ⟨text, hrender⟩ := h.rendered
  have hpost : (client.post text circumstances).outcome = some (.ok body) :=
    post_eq_ok.mpr ⟨h.sent, h.accepted⟩
  unfold ask
  rw [hrender]
  dsimp only
  rw [Exchange.bind, hpost, Option.map_some]
  rfl

/-- What comes of a single frame. -/
theorem outcome_of_gets (h : client.Gets method params circumstances frame) :
    (client.ask method params circumstances).outcome =
      some (Rpc.Payload.answer client.nextId (.single frame)) := by
  obtain ⟨body, hbody, hread⟩ := h
  rw [outcome_of_receives hbody, hread]
  rfl

/-- A body that is not a single frame is refused. -/
theorem ask_of_not_single (h : client.Receives method params circumstances body)
    (hframe : ∀ frame, Rpc.Payload.read body client.config.host ≠ .ok (.single frame)) :
    ∃ fault, (client.ask method params circumstances).outcome = some (.error fault) ∧
      Rpc.Unreadable fault := by
  obtain ⟨fault, hanswer, hfault⟩ := Rpc.Payload.read_answer_of_not_single hframe
  exact ⟨fault, (outcome_of_receives h).trans (congrArg some hanswer), hfault⟩

/-- A body comes, or the call fails without the service, if it ends at all. -/
theorem receives_cases (client : Client) (method : String) (params : List Param)
    (circumstances : Circumstances) :
    (∃ body, client.Receives method params circumstances body) ∨
      ∀ x, (client.ask method params circumstances).outcome = some x →
        ∃ fault, x = .error fault ∧ Unsaid fault := by
  unfold ask
  cases hrender : Request.render ⟨method, params, client.nextId⟩ with
  | error fault =>
    refine .inr fun x hx => ?_
    cases hx
    exact ⟨fault, rfl, Rpc.unsaid_of_isCodec (Request.confined_render _ fault hrender)⟩
  | ok text =>
    dsimp only [Exchange.bind]
    cases hpost : (client.post text circumstances).outcome with
    | none => exact .inr nofun
    | some posted =>
      cases posted with
      | error fault =>
        refine .inr fun x hx => ?_
        cases hx
        exact ⟨fault, rfl, confined_post hpost fault rfl⟩
      | ok body =>
        obtain ⟨hsent, haccepted⟩ := post_eq_ok.mp hpost
        exact .inl ⟨body, ⟨text, hrender⟩, hsent, haccepted⟩

/-- **A single frame comes, or the call fails without the service**, if it ends at all. -/
theorem ask_cases (client : Client) (method : String) (params : List Param)
    (circumstances : Circumstances) :
    (∃ frame, client.Gets method params circumstances frame) ∨
      ∀ x, (client.ask method params circumstances).outcome = some x →
        ∃ fault, x = .error fault ∧ Unsaid fault := by
  rcases receives_cases client method params circumstances with ⟨body, hbody⟩ | hfails
  · by_cases hframe : ∃ frame, Rpc.Payload.read body client.config.host = .ok (.single frame)
    · obtain ⟨frame, hread⟩ := hframe
      exact .inl ⟨frame, body, hbody, hread⟩
    · refine .inr fun x hx => ?_
      obtain ⟨fault, hfault, hunreadable⟩ :=
        ask_of_not_single hbody fun frame hread => hframe ⟨frame, hread⟩
      rw [hfault, Option.some.injEq] at hx
      exact ⟨fault, hx.symm, hunreadable.unsaid⟩
  · exact .inr hfails

/-- A result is that of a single frame with the id of the call and no error. -/
theorem ask_eq_ok {result : Bytes} :
    (client.ask method params circumstances).outcome = some (.ok result) ↔
      ∃ frame, client.Gets method params circumstances frame ∧ frame.error = none ∧
        frame.id = some (client.nextId : Int) ∧ frame.result = result := by
  constructor
  · intro h
    rcases ask_cases client method params circumstances with ⟨frame, hframe⟩ | hfails
    · rw [outcome_of_gets hframe, Option.some.injEq] at h
      exact ⟨frame, hframe, Rpc.Payload.answer_single_eq_ok.mp h⟩
    · obtain ⟨_, hfault, -⟩ := hfails _ h
      cases hfault
  · rintro ⟨frame, hframe, hgives⟩
    rw [outcome_of_gets hframe, Rpc.Payload.answer_single_eq_ok.mpr hgives]

/-- An error of the service is that of a single frame, whatever its id. -/
theorem ask_eq_server {error : ServerFault} :
    (client.ask method params circumstances).outcome = some (.error (.server error)) ↔
      ∃ frame, client.Gets method params circumstances frame ∧ frame.error = some error := by
  constructor
  · intro h
    rcases ask_cases client method params circumstances with ⟨frame, hframe⟩ | hfails
    · rw [outcome_of_gets hframe, Option.some.injEq] at h
      exact ⟨frame, hframe, Rpc.Payload.answer_single_eq_server.mp h⟩
    · obtain ⟨fault, hfault, hunsaid⟩ := hfails _ h
      cases hfault
      exact absurd rfl (hunsaid error)
  · rintro ⟨frame, hframe, herror⟩
    rw [outcome_of_gets hframe, Rpc.Payload.answer_single_eq_server.mpr herror]

/-- A result with another id, or with none, is refused. -/
theorem ask_of_other (h : client.Gets method params circumstances frame)
    (hnone : frame.error = none) (hid : frame.id ≠ some (client.nextId : Int)) :
    (client.ask method params circumstances).outcome =
      some (.error (.codec (.replyId frame.id client.nextId))) := by
  rw [outcome_of_gets h, Rpc.Payload.answer_of_other hnone hid]

/-- **A call takes only its own response just when no error is stray.** A call returns a result if
and only if the body of its response is a single frame that carries this result, the id of the call
and no error. A result with another id, or with none, is refused by the codec, and so is a body that
is not a single frame, unless a text in it is not UTF-8 or it nests deeper than the host reads. The
call fails with an error of the service if and only if the body is a single frame with this error,
and the id of that frame has no say in it. So the same rule holds for results and errors, that the
service is heard only in a frame with the id of the call, or in an error without id, and that a
frame with any other id is refused by the codec, exactly as long as no error with another id
comes. -/
theorem answer_own_iff (client : Client) (method : String) (params : List Param)
    (circumstances : Circumstances) :
    let outcome := (client.ask method params circumstances).outcome
    let Gets := client.Gets method params circumstances
    let own : Option Int := some client.nextId
    (∀ result, outcome = some (.ok result) ↔
      ∃ frame, Gets frame ∧ frame.error = none ∧ frame.id = own ∧ frame.result = result) ∧
    (∀ error, outcome = some (.error (.server error)) ↔
      ∃ frame, Gets frame ∧ frame.error = some error) ∧
    (∀ frame, Gets frame → frame.error = none → frame.id ≠ own →
      outcome = some (.error (.codec (.replyId frame.id client.nextId)))) ∧
    (∀ body, client.Receives method params circumstances body →
      (∀ frame, Rpc.Payload.read body client.config.host ≠ .ok (.single frame)) →
        ∃ fault, outcome = some (.error fault) ∧ Rpc.Unreadable fault) ∧
    ((∀ frame, Gets frame → ¬ frame.IsStray client.nextId) ↔
      (∀ error, outcome = some (.error (.server error)) →
        ∃ frame, Gets frame ∧ frame.error = some error ∧ (frame.id = own ∨ frame.id = none)) ∧
      ∀ frame, Gets frame → frame.id ≠ none → frame.id ≠ own →
        ∃ cause, outcome = some (.error (.codec cause))) := by
  intro outcome Gets own
  refine ⟨fun result => ask_eq_ok, fun error => ask_eq_server,
    fun frame hframe hnone hid => ask_of_other hframe hnone hid,
    fun body hbody hframe => ask_of_not_single hbody hframe, ?_⟩
  constructor
  · intro hnostray
    refine ⟨fun error h => ?_, fun frame hframe hsome hother => ?_⟩
    · obtain ⟨frame, hframe, herror⟩ := ask_eq_server.mp h
      refine ⟨frame, hframe, herror, ?_⟩
      by_contra hid
      rw [not_or] at hid
      exact hnostray frame hframe ⟨herror ▸ Option.some_ne_none error, hid.2, hid.1⟩
    · have hnone : frame.error = none := by
        by_contra herror
        exact hnostray frame hframe ⟨herror, hsome, hother⟩
      exact ⟨_, ask_of_other hframe hnone hother⟩
  · rintro ⟨-, hrefused⟩ frame hframe ⟨herror, hsome, hother⟩
    obtain ⟨error, herror⟩ := Option.ne_none_iff_exists'.mp herror
    obtain ⟨cause, hcause⟩ := hrefused frame hframe hsome hother
    have hserver : outcome = some (.error (.server error)) :=
      ask_eq_server.mpr ⟨frame, hframe, herror⟩
    cases hserver.symm.trans hcause

/-- **A call takes an error that names another request**: the first call of a client fails with an
error for request 7. -/
theorem ask_stray :
    let body := Utf8.encode "\x7b\"id\":7,\"error\":\x7b\"code\":-3,\"message\":\"no\"\x7d\x7d"
    let client : Client := { config := {} }
    let circumstances : Circumstances := { delivery := .response ⟨200, [body]⟩ }
    client.nextId = 1 ∧
      client.Gets "getSlot" [] circumstances { id := some 7, error := some ⟨-3, "no", .null⟩ } ∧
      (client.ask "getSlot" [] circumstances).outcome =
        some (.error (.server ⟨-3, "no", .null⟩)) := by
  intro body client circumstances
  have hread : Rpc.Payload.read body client.config.host =
      .ok (.single { id := some 7, error := some ⟨-3, "no", .null⟩ }) := by
    unfold body
    cbv
  have hreceives : client.Receives "getSlot" [] circumstances body :=
    ⟨⟨_, rfl⟩, by simp [circumstances], _, rfl, rfl⟩
  exact ⟨rfl, ⟨body, hreceives, hread⟩, outcome_of_gets ⟨body, hreceives, hread⟩⟩

end Client

end Http

end LedgerClient
