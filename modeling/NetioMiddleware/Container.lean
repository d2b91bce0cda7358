import NetioMiddleware.MsgQueue
import NetioMiddleware.Dispatcher

namespace NetioMiddleware

/-- Where a handler's user context stands: at the start of Execute, inside
Schedule with the local copy obj3 on its stack, or behind the end of Execute. -/
inductive Frame
  | start
  | suspended (obj3 : CCmd)
  | finished
  deriving DecidableEq

/-- What the handlers of one process work on: their contexts by index, the
message queues, and the keys of the statistics incremented so far. -/
structure World where
  frames : Int32 → Frame
  queues : Int32 → List QMsg
  stats : List Bytes

namespace World

def setFrame (w : World) (m_iIndex : Int32) (f : Frame) : World :=
  { w with frames := Function.update w.frames m_iIndex f }

/-- rpMsgq->PutMsg(&stMsg, strlen(stMsg.sBuf)) on the queue of a key. -/
def put (w : World) (key : Int32) (stMsg : MsgBuf) (sent : Bool) : World :=
  { w with queues :=
      Function.update w.queues key (putMsg (w.queues key) stMsg stMsg.text.length sent).2 }

/-- pCm->Incr(ss.str(), 1) with the last two digits of the process number. -/
def incr (w : World) (pszPrefix : Bytes) (m_iIndex : Int32) : World :=
  { w with stats := w.stats ++ [pszPrefix ++ printInt ((m_iIndex.toInt.tdiv 100).tmod 100)] }

end World

/-- CSvcTest::Execute. -/
def svcTestExecute (svc : IService) (oCmd : CCmd) (w : World) : CCmd × World :=
  ({ oCmd with sData := bytes "resp1=r1", iType := RESPONSE }, w.incr (bytes "c1_") svc.m_iIndex)

/-- CSvcTest2::SendRequest. -/
def sendRequest (svc : IService) (oCmd : CCmd) (w : World) (sent : Bool) : CCmd × World :=
  let oCmd := { oCmd with iSvcSerialNo := svc.m_iIndex, iCmd := svc.m_iCmd }
  (oCmd, w.put 0xccccd ((MsgBuf.reset.withType REQUEST.toInt).printCmd oCmd) sent)

/-- CSvcTest2::Execute up to Schedule. -/
def svcTest2Begin (svc : IService) (oCmd : CCmd) (w : World) (sent : Bool) : CCmd × World :=
  let obj3 := oCmd
  let oCmd := { oCmd with iRet := UNFINISH_TASK_RET_FLAG }
  let w := (sendRequest svc {} (w.incr (bytes "c2_") svc.m_iIndex) sent).2
  (oCmd, w.setFrame svc.m_iIndex (.suspended obj3))

/-- CSvcTest2::Execute from Schedule on: oCmd is the shared command again, and
GetResponse copies it. -/
def svcTest2End (obj3 oCmd : CCmd) : CCmd :=
  { obj3 with
    iRet := 0
    iSvcSerialNo := 0
    iType := RESPONSE
    sData := oCmd.sData ++ bytes "&resp2=r2" }

/-- The coroutines of both libraries; `sent` tells whether msgsnd finds room. -/
def services (sent : Bool) : Coroutines World where
  switchTo svc oCmd w :=
    match w.frames svc.m_iIndex, svc.svc with
    | .finished, _ => .error .deadCoroutine
    | .suspended obj3, _ => .ok (svcTest2End obj3 oCmd, w.setFrame svc.m_iIndex .finished)
    | .start, .CSvcTest =>
      let r := svcTestExecute svc oCmd w
      .ok (r.1, r.2.setFrame svc.m_iIndex .finished)
    | .start, .CSvcTest2 => .ok (svcTest2Begin svc oCmd w sent)
  resetUCTX svc w := w.setFrame svc.m_iIndex .start

/-- The text ProcessMsg gives a command whose dispatch failed. -/
def errText (iRet : Int32) : Bytes := bytes "errCode=" ++ dec iRet ++ bytes "&resp=Err happend!"

/-- The type of the messages one process waits for besides requests. -/
def appType (iPid : Int) : Int := iPid * 10 + APP.toInt

/-- The part of ProcessMsg that sends the reply. -/
def reply (pid : Nat) (oCmd : CCmd) (w : World) (sent : Bool) : Except Halt World :=
  if oCmd.iSvcSerialNo ≠ 0 then
    match routeCmd oCmd.iCmd with
    | none => .error .unassignedQueue
    | some key =>
      let stMsg2 := MsgBuf.reset.withType (appType (oCmd.iSvcSerialNo.toInt.tdiv 100))
      .ok (w.put key (stMsg2.printCmd { oCmd with iType := RESPONSE }) sent)
  else
    let oCmd := { oCmd with sData := oCmd.sData ++ bytes " by pid:" ++ printNat pid }
    let stMsg2 := MsgBuf.reset.withType RESPONSE.toInt
    .ok (w.put NET_IO_BACK_MSQ_KEY (stMsg2.printCmd { oCmd with iType := RESPONSE }) sent)

/-- The command ProcessMsg replies with, after a dispatch that returned iRet. -/
def replyCmd (iRet : Int32) (oCmd : CCmd) : CCmd :=
  if iRet ≠ 0 ∧ iRet ≠ UNFINISH_TASK_RET_FLAG then { oCmd with iRet := iRet, sData := errText iRet }
  else oCmd

/-- CContainerEventHandler::ProcessMsg. -/
def processMsg (pid : Nat) (d : Dispatcher) (w : World) (oCmd : CCmd) (sent : Bool) :
    Except Halt (Dispatcher × World) :=
  match dispatch (services sent) d w oCmd with
  | .error e => .error e
  | .ok (iRet, oCmd, d, w) =>
    if iRet = UNFINISH_TASK_RET_FLAG then .ok (d, w)
    else
      match reply pid (replyCmd iRet oCmd) w sent with
      | .error e => .error e
      | .ok w => .ok (d, w)

/-- The number the container is started with for a library. -/
def SvcClass.inputIndex : SvcClass → Int32
  | .CSvcTest => 1
  | .CSvcTest2 => 2

/-- The queue of the library in g_mapCmdDLL. -/
def SvcClass.mqKey : SvcClass → Int32
  | .CSvcTest => 0xccccd
  | .CSvcTest2 => 0xcccce

/-- A container process: the library it has loaded, its number, and the slots
of the handlers main has registered. -/
structure Container where
  svc : SvcClass
  pid : Nat
  slots : List Nat
  dispatcher : Dispatcher
  frames : Int32 → Frame
  stats : List Bytes

namespace Container

def handlers (svc : SvcClass) (pid : Nat) (slots : List Nat) : List IService :=
  slots.map (fun i => ⟨svc, svc.inputIndex, Int32.ofNat (pid * 100 + i)⟩)

/-- The process when main enters the event loop. The source registers the
slots 0 to 24. -/
def start (svc : SvcClass) (pid : Nat) (slots : List Nat) : Container where
  svc := svc
  pid := pid
  slots := slots
  dispatcher := (handlers svc pid slots).foldl addSvcHandler {}
  frames := fun _ => .start
  stats := []

/-- CContainerEventHandler::OnEventFire: one request, or else one message for
this process alone. -/
def onEventFire (c : Container) (queues : Int32 → List QMsg) (sent : Bool) :
    Except Halt (Container × (Int32 → List QMsg)) :=
  let process (queue : List QMsg) (oCmd : CCmd) : Except Halt (Container × (Int32 → List QMsg)) :=
    let w : World := ⟨c.frames, Function.update queues c.svc.mqKey queue, c.stats⟩
    match processMsg c.pid c.dispatcher w oCmd sent with
    | .error e => .error e
    | .ok (d, w) => .ok ({ c with dispatcher := d, frames := w.frames, stats := w.stats }, w.queues)
  let got := getMsg (queues c.svc.mqKey) (MsgBuf.reset.withType REQUEST.toInt)
  if got.1 = 0 then
    let app := getMsg got.2.2 (got.2.1.withType (appType c.pid))
    if app.1 = 0 then .ok (c, Function.update queues c.svc.mqKey app.2.2)
    else process app.2.2 (initCCmd {} app.2.1.sBuf)
  else process got.2.2 (initCCmd {} got.2.1.sBuf)

end Container

end NetioMiddleware
