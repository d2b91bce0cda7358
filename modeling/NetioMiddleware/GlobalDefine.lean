import NetioMiddleware.CText

namespace NetioMiddleware

def MAX_MSG_SIZE : Nat := 1024

def UNFINISH_TASK_RET_FLAG : Int32 := 2000000000

def CREATE_MSGQ_FAILED : Int32 := 1
def CNTL_MSGQ_BYTES_FAILED : Int32 := 2
def MSGQ_NO_EXIST : Int32 := 3
def MSG_TOO_LONG : Int32 := 4
def SEND_MSG_FAILED : Int32 := 5
def RECV_MSG_FAILED : Int32 := 6
def FCNTL_SOCKET_FAILED : Int32 := 13
def EPOLL_CNTL_FAILED : Int32 := 15
def NO_FREE_SVC_HANDLER : Int32 := 21

def REQUEST : Int32 := 1
def RESPONSE : Int32 := 2
def APP : Int32 := 3

def NET_IO_BACK_MSQ_KEY : Int32 := 0xccccc

/-- The keys of g_mapCmdDLL in map order: the request queues of svc_test and svc_test2. -/
def g_mapCmdDLL : List Int32 := [0xccccd, 0xcccce]

/-- How a process can stop being described by the source: `impossible` is an
outcome the kernel would never report, the others are an aborted assertion or
an access with no defined result. -/
inductive Halt
  | impossible
  | assertFailed
  | sockIndex
  | msgIndex
  | unassignedQueue
  | unterminatedBuf
  | deadCoroutine
  deriving DecidableEq

/-- The search both DoRecv and ProcessMsg make for the queue of a command: the
command is the position in g_mapCmdDLL, counted from 1. -/
def routeLoop (iCmd : Int32) : Int32 → List Int32 → Option Int32
  | _, [] => none
  | iCount, key :: rest => if iCmd = iCount then some key else routeLoop iCmd (iCount + 1) rest

def routeCmd (iCmd : Int32) : Option Int32 := routeLoop iCmd 1 g_mapCmdDLL

theorem routeCmd_eq_some {iCmd key : Int32} (h : routeCmd iCmd = some key) :
    (iCmd = 1 ∧ key = 0xccccd) ∨ (iCmd = 2 ∧ key = 0xcccce) := by
  simp only [routeCmd, g_mapCmdDLL, routeLoop] at h
  split at h
  next h1 => exact Or.inl ⟨h1, (Option.some.inj h).symm⟩
  next =>
    split at h
    next h2 => exact Or.inr ⟨h2, (Option.some.inj h).symm⟩
    next => contradiction

end NetioMiddleware
