import WorkerPipeline.Json.Reader
import WorkerPipeline.Orchestrator.Basic

set_option autoImplicit false

/-! # Configuration requests

A request takes a transaction number, goes to the worker that its text is meant for and comes
back with an answer, which has to bear the same number and to be positive.
-/

namespace WorkerPipeline

namespace Orchestrator

/-- Whether a response answers a request, and positively. -/
def accept (request : ConfigurationRequest) (r : ConfigurationResponse) :
    Except TransportFault ConfigurationResponse :=
  if r.transaction ≠ request.transaction then
    .error (.wrongReply r.transaction request.transaction)
  else if r.success then .ok r
  else .error (.requestRejected request.worker request.transaction r.code)

def sendRequest (o : Orchestrator) (configuration : String) :
    Except Error ConfigurationResponse × Orchestrator :=
  let o := { o with transactions := o.transactions.next }
  let transaction := o.transactions.last
  match Routing.route configuration with
  | .unknown =>
    (.error (.routingFailure configuration), o.note (.requestUnroutable transaction configuration))
  | worker =>
    let request : ConfigurationRequest := { worker, transaction, configuration }
    let (response, hub) := o.hub.answer request
    ((accept request response).mapError .transportFailure,
      { o.note (.requestSent transaction worker) with hub })

/-- A reply as a JSON value; a reply that is no JSON stands for itself as a string. -/
def replyJson (reply : String) : Json := ((Json.read? reply).bind Json.free?).getD (.str reply)

def configRequest (o : Orchestrator) (configuration : String) : Except Error Json × Orchestrator :=
  match o.sendRequest configuration with
  | (.error e, o) => (.error e, o)
  | (.ok response, o) => (.ok (replyJson response.configuration), o)

end Orchestrator

end WorkerPipeline
