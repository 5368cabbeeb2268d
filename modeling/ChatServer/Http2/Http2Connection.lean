import Mathlib.Data.List.Basic
import Mathlib.Logic.Function.Basic

/-!
# Requests over the incarnations of a connection

A client keeps its streams and its waiting requests under stream numbers. Every reconnect starts
the numbers at 1 again, while requests and timer callbacks of before may still be under way. A
step is the code between two places where another fiber can come in; `holder`, `incarnation`,
`sent` and `effects` are there to say what happened, no code reads them.
-/

namespace ChatServer.Http2.Http2Connection

set_option autoImplicit false

structure Carrier (Request : Type) where
  id : UInt32
  owner : Request
  incarnation : Nat
  deriving DecidableEq

/-- How far `request` is: behind `isConnected`, with a number for its stream, behind
`m_streamMgr.add`, behind `addCtx`, behind `addTimer`, with `ctx->timer` set, or yielded. -/
inductive Progress where
  | idle
  | checked
  | numbered
  | opened
  | registered
  | armed
  | kept
  | waiting
  deriving DecidableEq

/-- The timer is in the set, or `listExpiredCb` has taken its callback out, or the callback is
behind `m_ctxs.erase`, behind `doRsp`, behind the `close` of the stream, or at its end. -/
inductive TimerState where
  | none
  | armed
  | taken
  | erased
  | answered
  | closed
  | done
  | cancelled
  deriving DecidableEq

/-- `scheduler` tells whether it is still set, `incarnation` when the number was given. -/
structure RequestCtx where
  sn : UInt32
  incarnation : Nat
  progress : Progress
  timer : TimerState
  scheduler : Bool
  deriving DecidableEq

/-- `cancel` does nothing once the callback is taken out, and needs `ctx->timer`. -/
def RequestCtx.doRsp (ctx : RequestCtx) : RequestCtx :=
  if ctx.scheduler then
    { ctx with
      scheduler := false
      timer :=
        if (ctx.progress = .kept ∨ ctx.progress = .waiting) ∧ ctx.timer = .armed then .cancelled
        else ctx.timer }
  else ctx

/-- Where the fiber of `start`, `doRead` and `innerClose` is. `onStreamClose` closes the stream,
erases it, takes the context and answers it; `innerClose` closes the socket, swaps `m_ctxs`,
clears the queue and fails the requests. -/
inductive Reader (Request : Type) where
  | down
  | reconnected
  | ready
  | reading
  | closing (stream : Carrier Request)
  | erasing (stream : Carrier Request)
  | taking (stream : Carrier Request)
  | answering (stream : Carrier Request) (request : Request)
  | closed
  | swapped (ctxs : List (UInt32 × Request))
  | failing (requests : List Request)
  deriving DecidableEq

/-- A response received on a stream in an incarnation completes a request; the timeout or the
end of the stream of `actor` removes or closes what belongs to `owner`. -/
inductive Effect (Request : Type) where
  | answers (stream : Carrier Request) (incarnation : Nat) (request : Request)
  | removesCtx (actor owner : Request)
  | closesStream (actor owner : Request)
  | removesStream (actor owner : Request)
  deriving DecidableEq

/-- `batch` is what `doWrite` has swapped out of the queue, `holder` the request that was given a
number last. -/
structure State (Request : Type) where
  connected : Bool
  incarnation : Nat
  sn : UInt32
  holder : UInt32 → Option Request
  calls : Request → RequestCtx
  streams : UInt32 → Option (Carrier Request)
  ctxs : List (UInt32 × Request)
  queue : List Request
  batch : List Request
  writing : Bool
  reader : Reader Request
  sent : List (Request × Carrier Request)
  effects : List (Effect Request)

/-- `call`, `callback`, `proceed` and `doSend` are the next step of a request, of its timer
callback, of the reading fiber and of the writing one. -/
inductive Action (Request : Type) where
  | call (request : Request)
  | expire (request : Request)
  | callback (request : Request)
  | receive (id : UInt32)
  | proceed
  | innerClose
  | fail (request : Request)
  | leave
  | reconnect
  | swapQueue
  | doSend
  | stopWrite
  | close

variable {Request : Type}

def start : State Request where
  connected := false
  incarnation := 0
  sn := 0xFFFFFFFF
  holder _ := none
  calls _ := ⟨0, 0, .idle, .none, true⟩
  streams _ := none
  ctxs := []
  queue := []
  batch := []
  writing := false
  reader := .down
  sent := []
  effects := []

namespace State

variable [DecidableEq Request]

def setCtx (s : State Request) (request : Request) (ctx : RequestCtx) : State Request :=
  { s with calls := Function.update s.calls request ctx }

def setProgress (s : State Request) (request : Request) (progress : Progress) : State Request :=
  s.setCtx request { s.calls request with progress := progress }

def setTimer (s : State Request) (request : Request) (timer : TimerState) : State Request :=
  s.setCtx request { s.calls request with timer := timer }

def doRsp (s : State Request) (request : Request) : State Request :=
  s.setCtx request (s.calls request).doRsp

theorem set_ctx_self (s : State Request) (request : Request) (ctx : RequestCtx) :
    (s.setCtx request ctx).calls request = ctx := by
  simp only [setCtx, Function.update_self]

theorem set_ctx_other (s : State Request) {request other : Request} (different : other ≠ request)
    (ctx : RequestCtx) : (s.setCtx request ctx).calls other = s.calls other := by
  simp only [setCtx, Function.update_of_ne different]

theorem set_progress_sn (s : State Request) (request other : Request) (progress : Progress) :
    ((s.setProgress request progress).calls other).sn = (s.calls other).sn := by
  unfold setProgress
  by_cases same : other = request
  · rw [same, set_ctx_self]
  · rw [set_ctx_other s same]

theorem set_progress_timer (s : State Request) (request other : Request) (progress : Progress) :
    ((s.setProgress request progress).calls other).timer = (s.calls other).timer := by
  unfold setProgress
  by_cases same : other = request
  · rw [same, set_ctx_self]
  · rw [set_ctx_other s same]

def takeNumber (s : State Request) (request : Request) : State Request :=
  { s.setCtx request
      { s.calls request with
        sn := s.sn + 2
        incarnation := s.incarnation
        progress := .numbered } with
    sn := s.sn + 2
    holder := Function.update s.holder (s.sn + 2) (some request) }

theorem take_number_self (s : State Request) (request : Request) :
    (s.takeNumber request).holder (s.sn + 2) = some request := by
  simp only [takeNumber, Function.update_self]

theorem take_number_other (s : State Request) (request : Request) {id : UInt32}
    (different : id ≠ s.sn + 2) : (s.takeNumber request).holder id = s.holder id := by
  simp only [takeNumber, Function.update_of_ne different]

def stream (s : State Request) (request : Request) : Carrier Request :=
  ⟨(s.calls request).sn, request, (s.calls request).incarnation⟩

def addStream (s : State Request) (request : Request) : State Request :=
  { s.setProgress request .opened with
    streams := Function.update s.streams (s.calls request).sn (some (s.stream request)) }

theorem add_stream_self (s : State Request) (request : Request) :
    (s.addStream request).streams (s.calls request).sn = some (s.stream request) := by
  simp only [addStream, Function.update_self]

theorem add_stream_other (s : State Request) (request : Request) {id : UInt32}
    (different : id ≠ (s.calls request).sn) :
    (s.addStream request).streams id = s.streams id := by
  simp only [addStream, setProgress, setCtx, Function.update_of_ne different]

def addCtx (s : State Request) (request : Request) : State Request :=
  { s.setProgress request .registered with
    ctxs :=
      if (s.ctxs.lookup (s.calls request).sn).isSome then s.ctxs
      else ((s.calls request).sn, request) :: s.ctxs }

def enqueue (s : State Request) (request : Request) : State Request :=
  { s.setProgress request .waiting with queue := s.queue ++ [request] }

def call (s : State Request) (request : Request) : Option (State Request) :=
  match (s.calls request).progress with
  | .idle =>
      if s.connected then some (s.setProgress request .checked) else none
  | .checked => some (s.takeNumber request)
  | .numbered => some (s.addStream request)
  | .opened => some (s.addCtx request)
  | .registered =>
      some (s.setCtx request { s.calls request with progress := .armed, timer := .armed })
  | .armed => some (s.setProgress request .kept)
  | .kept => some (s.enqueue request)
  | .waiting => none

def eraseCtx (s : State Request) (actor : Request) (sn : UInt32) : State Request :=
  { s with
    ctxs := s.ctxs.filter fun entry => entry.1 ≠ sn
    effects := (s.ctxs.lookup sn).toList.map (.removesCtx actor) ++ s.effects }

def closeStream (s : State Request) (actor : Request) (id : UInt32) : State Request :=
  { s with
    effects :=
      (s.streams id).toList.map (fun stream => .closesStream actor stream.owner) ++ s.effects }

def eraseStream (s : State Request) (actor : Request) (id : UInt32) : State Request :=
  { s with
    streams := Function.update s.streams id none
    effects :=
      (s.streams id).toList.map (fun stream => .removesStream actor stream.owner) ++ s.effects }

def callback (s : State Request) (request : Request) : Option (State Request) :=
  let sn := (s.calls request).sn
  match (s.calls request).timer with
  | .taken => some ((s.eraseCtx request sn).setTimer request .erased)
  | .erased => some ((s.doRsp request).setTimer request .answered)
  | .answered => some ((s.closeStream request sn).setTimer request .closed)
  | .closed => some ((s.eraseStream request sn).setTimer request .done)
  | _ => none

def takeCtx (s : State Request) (stream : Carrier Request) : State Request :=
  { s.eraseCtx stream.owner stream.id with
    reader :=
      match s.ctxs.lookup stream.id with
      | some request => .answering stream request
      | none => .reading }

def answer (s : State Request) (stream : Carrier Request) (request : Request) : State Request :=
  { s.doRsp request with
    effects := .answers stream s.incarnation request :: s.effects
    reader := .reading }

/-- `reset` starts the numbers again; it closes the streams and leaves them in the map. -/
def proceed (s : State Request) : Option (State Request) :=
  match s.reader with
  | .reconnected => some { s with sn := 0xFFFFFFFF, reader := .ready }
  | .ready => some { s with reader := .reading, writing := true }
  | .closing stream =>
      some { s.closeStream stream.owner stream.id with reader := .erasing stream }
  | .erasing stream =>
      some { s.eraseStream stream.owner stream.id with reader := .taking stream }
  | .taking stream => some (s.takeCtx stream)
  | .answering stream request => some (s.answer stream request)
  | .closed => some { s with ctxs := [], reader := .swapped s.ctxs }
  | .swapped ctxs => some { s with queue := [], reader := .failing (ctxs.map Prod.snd) }
  | _ => none

/-- A frame has closed the stream that `getStream` found for it. -/
def receive (s : State Request) (id : UInt32) : Option (State Request) :=
  match s.reader, s.streams id with
  | .reading, some stream => some { s with reader := .closing stream }
  | _, _ => none

/-- `start` may call it before the reading fiber runs, `doRecv` before `doRead` does again. -/
def innerClose (s : State Request) : Option (State Request) :=
  match s.reader with
  | .down | .reconnected | .ready | .reading | .failing [] =>
      some { s with connected := false, reader := .closed }
  | _ => none

/-- `io_error` for one of the requests that `innerClose` has swapped out, in the order of the
hash map. -/
def fail (s : State Request) (request : Request) : Option (State Request) :=
  match s.reader with
  | .failing requests =>
      if request ∈ requests then
        some { s.doRsp request with reader := .failing (requests.erase request) }
      else none
  | _ => none

def leave (s : State Request) : Option (State Request) :=
  match s.reader with
  | .failing [] => some { s with reader := .down }
  | _ => none

def reconnect (s : State Request) : Option (State Request) :=
  match s.reader with
  | .down =>
      if s.writing then none
      else
        some
          { s with connected := true, incarnation := s.incarnation + 1, reader := .reconnected }
  | _ => none

def swapQueue (s : State Request) : Option (State Request) :=
  if s.writing ∧ s.batch = [] then some { s with queue := [], batch := s.queue } else none

/-- `RequestCtx::doSend` looks the stream up by number; `sendFrame` needs a connected socket. -/
def doSend (s : State Request) : Option (State Request) :=
  match s.batch with
  | request :: rest =>
      some
        { s with
          batch := rest
          sent :=
            if s.connected then
              (s.streams (s.calls request).sn).toList.map (fun stream => (request, stream)) ++
                s.sent
            else s.sent }
  | [] => none

def stopWrite (s : State Request) : Option (State Request) :=
  if s.writing ∧ s.batch = [] ∧ s.connected = false then
    some { s with queue := [], writing := false }
  else none

end State

def step [DecidableEq Request] (s : State Request) : Action Request → Option (State Request)
  | .call request => s.call request
  | .expire request =>
      if (s.calls request).timer = .armed then some (s.setTimer request .taken) else none
  | .callback request => s.callback request
  | .receive id => s.receive id
  | .proceed => s.proceed
  | .innerClose => s.innerClose
  | .fail request => s.fail request
  | .leave => s.leave
  | .reconnect => s.reconnect
  | .swapQueue => s.swapQueue
  | .doSend => s.doSend
  | .stopWrite => s.stopWrite
  | .close => some { s with connected := false }

end ChatServer.Http2.Http2Connection
