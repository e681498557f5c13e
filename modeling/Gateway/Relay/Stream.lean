import Gateway.Lib.Machine
import Gateway.Relay.Metering
import Gateway.Relay.Settlement

/-!
A streamed response after the function that created it has returned.

Two flows share the request: the pulls of the response stream, of which one runs
at a time, and the cancellation by the client, which comes at most once. Each
runs from one await to the next, and an action says which await is over and how
it ended, so a list of actions is an order of events. Whichever flow begins the
settlement runs it to its end; the other finds it begun.
-/

namespace Gateway

structure StreamContext where
  wire : Dialect
  options : StreamOptions
  semantic : UsageSemantic
  pricing : ResolvedPricing
  groupRatio : ℚ
  billedModel : String
  quotaPerUnit : ℚ

/-- Where a flow stands: not running, or waiting for a frame or for a call of
the settlement, or over. -/
inductive Flow where
  | waiting
  | reading
  | settling (step : SettleStep) (bill : Bill) (failed : Bool)
  | ended
deriving DecidableEq, Repr

structure StreamState where
  request : RequestState
  translator : StreamTranslator
  finished : Bool
  cancelled : Bool
  pull : Flow
  cancel : Flow
  delivered : List Record

/-- How the read of the next frame ends. A frame can be one that the framer of
the client writes nothing for, or one that the translator throws on, at
whatever state that leaves it in. -/
inductive ReadResult where
  | frame (event : SseEvent) (written : Bool)
  | translatorError (left : StreamTranslator)
  | error
  | eof

inductive StreamAction where
  | pull
  | read (result : ReadResult)
  | pullStep (failed : Bool)
  | cancel
  | cancelStep (failed : Bool)

namespace StreamContext

/-- The bill for the usage that a translator has seen. -/
def bill (ctx : StreamContext) (translator : StreamTranslator) (status : UsageStatus) : Bill :=
  let usage := normalizeUsage (some (.obj translator.usageSoFar)) ctx.semantic
  ⟨(computeQuota ctx.quotaPerUnit usage ctx.pricing ctx.groupRatio ctx.billedModel).quota,
    usage.completionTokens, status⟩

/-- The frame ends the stream: for the OpenAI format only the sentinel does. -/
def endsStream (ctx : StreamContext) (event : SseEvent) (translator : StreamTranslator) : Bool :=
  (ctx.wire == .openai && isDoneSentinel event.data) || (ctx.wire != .openai && translator.isDone)

end StreamContext

namespace StreamState

/-- The stream as the relay hands it over. -/
def start (ctx : StreamContext) (r : RequestState) : StreamState :=
  ⟨r, createStreamTranslator ctx.wire, false, false, .waiting, .waiting, []⟩

/-- `settle` up to its first await, by the flow that calls it. -/
def beginSettle (s : StreamState) (bill : Bill) : Flow × StreamState :=
  match s.request.beginSettle bill with
  | none => (.ended, s)
  | some r => (.settling .finalizing bill false, { s with request := r })

/-- `finishStream`, called by the running pull. -/
def finishStream (ctx : StreamContext) (status : UsageStatus) (s : StreamState) : StreamState :=
  if s.finished then { s with pull := .waiting }
  else
    let (flow, s) := { s with finished := true }.beginSettle (ctx.bill s.translator status)
    { s with pull := flow }

/-- A frame is over: it may end the stream, ask for the next read, or return to
the runtime with what was written. -/
def handleFrame (ctx : StreamContext) (event : SseEvent) (written : Bool) (s : StreamState) :
    StreamState :=
  let (chunks, translator) := s.translator.handle ctx.options event
  let s := { s with
    translator := translator
    delivered := if written then s.delivered ++ chunks else s.delivered }
  if ctx.endsStream event translator then s.finishStream ctx .success
  else { s with pull := if written then .waiting else .reading }

def handleRead (ctx : StreamContext) (result : ReadResult) (s : StreamState) : StreamState :=
  if s.finished then { s with pull := .waiting }
  else
    match result with
    | .error => s.finishStream ctx .error
    | .eof => s.finishStream ctx .success
    | .translatorError left => { s with translator := left }.finishStream ctx .error
    | .frame event written => s.handleFrame ctx event written

/-- The flow of a settlement after the call it awaited; `failed` matters for
`finalizeQuota` only, whose error is thrown at the end. -/
def nextFlow (step : SettleStep) (bill : Bill) (earlier failed : Bool) (r : RequestState) :
    Flow × RequestState :=
  let (next, r) := r.nextSettle bill step
  (next.elim .ended (fun next =>
    .settling next bill (earlier || (failed && step == .finalizing))), r)

/-- `cancel()`: the stream is closed to the client from here on. -/
def handleCancel (ctx : StreamContext) (s : StreamState) : StreamState :=
  let (flow, s) := { s with cancelled := true, finished := true }.beginSettle
    (ctx.bill s.translator .aborted)
  { s with cancel := flow }

/-- A runtime pulls a stream that is open and not being pulled, and passes on a
cancellation of a stream that is open. -/
def step (ctx : StreamContext) (s : StreamState) : StreamAction → StreamState
  | .pull =>
      match s.pull, s.cancelled with
      | .waiting, false => { s with pull := if s.finished then .waiting else .reading }
      | _, _ => s
  | .read result =>
      match s.pull with
      | .reading => s.handleRead ctx result
      | _ => s
  | .pullStep failed =>
      match s.pull with
      | .settling step bill earlier =>
          let (flow, r) := nextFlow step bill earlier failed s.request
          { s with pull := flow, request := r }
      | _ => s
  | .cancel =>
      match s.pull, s.cancelled with
      | .ended, _ | _, true => s
      | _, false => s.handleCancel ctx
  | .cancelStep failed =>
      match s.cancel with
      | .settling step bill earlier =>
          let (flow, r) := nextFlow step bill earlier failed s.request
          { s with cancel := flow, request := r }
      | _ => s

/-- The state after an order of events. -/
def run (ctx : StreamContext) (s : StreamState) (as : List StreamAction) : StreamState :=
  Machine.run (fun s a => (s.step ctx a, ())) s as

/-- No flow will run again: the stream is closed, failed or cancelled, and
nothing is awaited. -/
def Terminated (s : StreamState) : Prop :=
  (s.pull = .ended ∨ (s.cancelled = true ∧ s.pull = .waiting)) ∧
    (s.cancel = .waiting ∨ s.cancel = .ended)

end StreamState

end Gateway
