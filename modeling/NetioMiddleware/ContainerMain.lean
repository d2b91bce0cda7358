import NetioMiddleware.FailedInit

namespace NetioMiddleware

def OPEN_DLL_FAILED : Int32 := 8

def atoi (s : Bytes) : Int32 := Int32.ofInt (atoll s)

def SvcClass.library : SvcClass → Bytes
  | .CSvcTest => bytes "./so/svc_test.so"
  | .CSvcTest2 => bytes "./so/svc_test2.so"

/-- g_mapCmdDLL with its libraries. -/
def cmdDLLs : List (Int32 × Bytes) :=
  [(0xccccd, SvcClass.library .CSvcTest), (0xcccce, SvcClass.library .CSvcTest2)]

example : cmdDLLs.map Prod.fst = g_mapCmdDLL := rfl

/-- What dlopen finds under a name: a library, with the class whose factory its
InitSvrObjFactory returns when dlsym finds that. -/
abbrev Linker := Bytes → Option (Option SvcClass)

/-- A library's handle is taken to be its name. -/
structure CServiceLoader where
  m_mapHandlers : SortedMap Int32 Bytes
  m_mapServiceFactory : SortedMap Int32 SvcClass

namespace CServiceLoader

def new : CServiceLoader := ⟨.empty, .empty⟩

/-- LoadSercie_i, which returns nothing when it has loaded the library. -/
def loadSercie_i (l : CServiceLoader) (dl : Linker) (iCmdId : Int32) (pszDLLName : Bytes) :
    Option Int32 × CServiceLoader :=
  match dl pszDLLName with
  | none => (some OPEN_DLL_FAILED, l)
  | some none => (some OPEN_DLL_FAILED, l)
  | some (some pSvcFactory) =>
    (none, ⟨l.m_mapHandlers.assign iCmdId pszDLLName, l.m_mapServiceFactory.assign iCmdId pSvcFactory⟩)

def getServiceFactory (l : CServiceLoader) (iCmdId : Int32) : Int32 × Option SvcClass :=
  match l.m_mapServiceFactory.find? iCmdId with
  | some pIServiceFactory => (0, some pIServiceFactory)
  | none => (-1, none)

end CServiceLoader

/-- A container process in main: its number, and the queue of the event handler
it has registered. -/
structure Process where
  pid : Nat
  oServiceLoader : CServiceLoader
  pServiceDispatcher : Dispatcher
  m_iMqKey : Option Int32

/-- The handlers main creates for one library. -/
def addHandlers (pIServiceFactory : SvcClass) (inputIndex : Int32) (pid : Nat) (d : Dispatcher) :
    Dispatcher :=
  (List.range 25).foldl
    (fun d i => addSvcHandler d ⟨pIServiceFactory, inputIndex, Int32.ofNat (pid * 100 + i)⟩) d

/-- The loop of main over g_mapCmdDLL. -/
def registerLoop (dl : Linker) (inputIndex : Int32) :
    Int32 → List (Int32 × Bytes) → Process → Except Halt Process
  | _, [], p => .ok p
  | iIndex, it :: rest, p =>
    if iIndex = inputIndex then
      let oServiceLoader := (p.oServiceLoader.loadSercie_i dl it.1 it.2).2
      match oServiceLoader.getServiceFactory it.1 with
      | (_, none) => .error .assertFailed
      | (_, some pIServiceFactory) =>
        registerLoop dl inputIndex (iIndex + 1) rest
          { p with
            oServiceLoader := oServiceLoader
            pServiceDispatcher := addHandlers pIServiceFactory inputIndex p.pid p.pServiceDispatcher
            m_iMqKey := some it.1 }
    else registerLoop dl inputIndex (iIndex + 1) rest p

/-- The processes behind the loop around fork, by their numbers: what fork gives
the father each time is a child or nothing. A child leaves the loop, and the
father goes on when fork has failed, too. -/
def forkLoop (pid : Nat) : List (Option Nat) → List Nat
  | [] => [pid]
  | none :: rest => forkLoop pid rest
  | some child :: rest => child :: forkLoop pid rest

/-- One start of the program: its argument, its process number and what its five
forks give. -/
structure Launch where
  argv1 : Option Bytes
  pid : Nat
  forks : List (Option Nat)
  five : forks.length = 5

namespace Launch

/-- The processes of main of container when they enter the event loop. -/
def main (l : Launch) (dl : Linker) : List (Except Halt Process) :=
  match l.argv1 with
  | none => []
  | some arg =>
    let inputIndex := atoi arg
    if inputIndex ≠ 1 ∧ inputIndex ≠ 2 then []
    else (forkLoop l.pid l.forks).map fun pid => registerLoop dl inputIndex 1 cmdDLLs ⟨pid, .new, {}, none⟩

/-- The service a process is started for. -/
def svc (l : Launch) : Option SvcClass :=
  l.argv1.bind fun arg =>
    if atoi arg = 1 then some .CSvcTest else if atoi arg = 2 then some .CSvcTest2 else none

/-- The processes that are not sent away with the usage. -/
def pids (l : Launch) : List Nat := if l.svc = none then [] else forkLoop l.pid l.forks

end Launch

/-- The class of the library a queue belongs to. -/
def classOf (key : Int32) : Option SvcClass :=
  if key = SvcClass.mqKey .CSvcTest then some .CSvcTest
  else if key = SvcClass.mqKey .CSvcTest2 then some .CSvcTest2
  else none

/-- A process as the backend has it. -/
def Process.container (p : Process) : Option Container :=
  (p.m_iMqKey.bind classOf).map fun svc => ⟨svc, p.pid, List.range 25, p.pServiceDispatcher, fun _ => .start, []⟩

/-- The processes that run after some launches. -/
def containers (dl : Linker) (launches : List Launch) : List Container :=
  launches.flatMap fun l =>
    (l.main dl).filterMap fun
      | .ok p => p.container
      | .error _ => none

/-- A library's factory creates its own class. -/
def Linker.Own (dl : Linker) : Prop := ∀ svc cls, dl svc.library = some (some cls) → cls = svc

theorem svc_argument {l : Launch} {svc : SvcClass} (h : l.svc = some svc) :
    ∃ arg, l.argv1 = some arg ∧ atoi arg = svc.inputIndex := by
  obtain ⟨arg, harg, hsvc⟩ := Option.bind_eq_some_iff.mp h
  refine ⟨arg, harg, ?_⟩
  split at hsvc
  next h1 =>
    cases Option.some.inj hsvc
    exact h1
  next =>
    split at hsvc
    next h2 =>
      cases Option.some.inj hsvc
      exact h2
    next => contradiction

theorem getServiceFactory_eq (l : CServiceLoader) (iCmdId : Int32) :
    (l.getServiceFactory iCmdId).2 = l.m_mapServiceFactory.find? iCmdId := by
  unfold CServiceLoader.getServiceFactory
  split
  next h => exact h.symm
  next h => exact h.symm

theorem loadSercie_i_find? (l : CServiceLoader) (dl : Linker) (iCmdId key : Int32) (pszDLLName : Bytes) :
    (l.loadSercie_i dl iCmdId pszDLLName).2.m_mapServiceFactory.find? key =
      if key = iCmdId then ((dl pszDLLName).bind id).or (l.m_mapServiceFactory.find? key)
      else l.m_mapServiceFactory.find? key := by
  unfold CServiceLoader.loadSercie_i
  split
  next h => rw [h]; exact (ite_self _).symm
  next h => rw [h]; exact (ite_self _).symm
  next cls h =>
    rw [h, SortedMap.find?_assign]
    by_cases hkey : key = iCmdId
    · rw [if_pos hkey, if_pos hkey]
      rfl
    · rw [if_neg hkey, if_neg hkey]

theorem load_factory (dl : Linker) (key : Int32) (name : Bytes) :
    ((CServiceLoader.new.loadSercie_i dl key name).2.getServiceFactory key).2 = (dl name).bind id := by
  rw [getServiceFactory_eq, loadSercie_i_find?, if_pos rfl]
  exact Option.or_none

theorem container_of_key {svc : SvcClass} {p : Process} (h : p.m_iMqKey = some svc.mqKey) :
    p.container = some ⟨svc, p.pid, List.range 25, p.pServiceDispatcher, fun _ => .start, []⟩ := by
  have hclass : classOf svc.mqKey = some svc := by cases svc <;> decide
  rw [Process.container, h, Option.bind_some, hclass]
  rfl

theorem addHandlers_start (svc : SvcClass) (pid : Nat) :
    addHandlers svc svc.inputIndex pid {} = (Container.start svc pid (List.range 25)).dispatcher := by
  rw [addHandlers, Container.start, Container.handlers, List.foldl_map]

/-- One turn of the loop at the library that is asked for. -/
theorem registerLoop_turn {dl : Linker} {inputIndex : Int32} {it : Int32 × Bytes}
    {rest : List (Int32 × Bytes)} {pid : Nat} :
    registerLoop dl inputIndex inputIndex (it :: rest) ⟨pid, .new, {}, none⟩ =
      match (dl it.2).bind id with
      | none => .error .assertFailed
      | some cls => registerLoop dl inputIndex (inputIndex + 1) rest
          ⟨pid, (CServiceLoader.new.loadSercie_i dl it.1 it.2).2, addHandlers cls inputIndex pid {},
            some it.1⟩ := by
  have hfactory := load_factory dl it.1 it.2
  rw [registerLoop, if_pos rfl]
  dsimp only
  split
  next r hget =>
    rw [hget] at hfactory
    rw [← hfactory]
  next r cls hget =>
    rw [hget] at hfactory
    rw [← hfactory]

theorem registerLoop_container {dl : Linker} (hown : Linker.Own dl) (svc : SvcClass) (pid : Nat) :
    (match registerLoop dl svc.inputIndex 1 cmdDLLs ⟨pid, .new, {}, none⟩ with
      | .ok p => p.container
      | .error _ => none) =
      if dl svc.library = some (some svc) then some (Container.start svc pid (List.range 25)) else none := by
  have hend : registerLoop dl svc.inputIndex 1 cmdDLLs ⟨pid, .new, {}, none⟩ =
      match (dl svc.library).bind id with
      | none => .error .assertFailed
      | some cls => .ok ⟨pid, (CServiceLoader.new.loadSercie_i dl svc.mqKey svc.library).2,
          addHandlers cls svc.inputIndex pid {}, some svc.mqKey⟩ := by
    cases svc with
    | CSvcTest =>
      exact registerLoop_turn
    | CSvcTest2 =>
      have hskip : registerLoop dl (SvcClass.inputIndex .CSvcTest2) 1 cmdDLLs ⟨pid, .new, {}, none⟩ =
          registerLoop dl (SvcClass.inputIndex .CSvcTest2) (SvcClass.inputIndex .CSvcTest2)
            [(0xcccce, SvcClass.library .CSvcTest2)] ⟨pid, .new, {}, none⟩ := if_neg (by decide)
      exact hskip.trans registerLoop_turn
  rw [hend]
  cases hdl : dl svc.library with
  | none => rfl
  | some lib =>
    cases lib with
    | none => rfl
    | some cls =>
      obtain rfl := hown svc cls hdl
      rw [if_pos rfl]
      dsimp only [Option.bind_some, id]
      rw [container_of_key rfl, addHandlers_start]
      rfl

/-- The processes a launch leaves running. -/
def Launch.started (l : Launch) (dl : Linker) : List Container :=
  match l.svc with
  | none => []
  | some svc =>
    if dl svc.library = some (some svc) then
      (forkLoop l.pid l.forks).map fun pid => Container.start svc pid (List.range 25)
    else []

theorem launch_container {dl : Linker} (hown : Linker.Own dl) (l : Launch) :
    (l.main dl).filterMap (fun
      | .ok p => p.container
      | .error _ => none) = l.started dl := by
  unfold Launch.started
  cases hsvc : l.svc with
  | none =>
    unfold Launch.main
    cases harg : l.argv1 with
    | none => rfl
    | some arg =>
      have hother : atoi arg ≠ 1 ∧ atoi arg ≠ 2 := by
        rw [Launch.svc, harg, Option.bind_some] at hsvc
        split at hsvc
        next => contradiction
        next h1 =>
          split at hsvc
          next => contradiction
          next h2 => exact ⟨h1, h2⟩
      dsimp only
      rw [if_pos hother]
      rfl
  | some svc =>
    obtain ⟨arg, harg, hindex⟩ := svc_argument hsvc
    have hmain : l.main dl = (forkLoop l.pid l.forks).map fun pid =>
        registerLoop dl svc.inputIndex 1 cmdDLLs ⟨pid, .new, {}, none⟩ := by
      rw [Launch.main, harg]
      dsimp only
      rw [hindex, if_neg]
      cases svc <;> decide
    rw [hmain, List.filterMap_map]
    dsimp only [Function.comp_def]
    rw [List.filterMap_congr (fun pid _ => registerLoop_container hown svc pid)]
    split
    next => rw [List.filterMap_eq_map']
    next => simp

theorem containers_eq {dl : Linker} (hown : Linker.Own dl) (launches : List Launch) :
    containers dl launches = launches.flatMap fun l => l.started dl :=
  List.flatMap_congr fun l _ => launch_container hown l

theorem forkLoop_length (pid : Nat) (forks : List (Option Nat)) :
    (forkLoop pid forks).length = 1 + forks.countP Option.isSome := by
  induction forks with
  | nil => rfl
  | cons fork forks ih =>
    cases fork with
    | none => simpa [forkLoop] using ih
    | some child =>
      simp only [forkLoop, List.length_cons, ih, List.countP_cons, Option.isSome_some, if_pos]
      omega

theorem started_mem {dl : Linker} {l : Launch} {c : Container} (h : c ∈ l.started dl) :
    ∃ svc pid, pid ∈ l.pids ∧ c = Container.start svc pid (List.range 25) := by
  unfold Launch.started at h
  split at h
  next => contradiction
  next svc hsvc =>
    split at h
    next =>
      obtain ⟨pid, hpid, rfl⟩ := List.mem_map.mp h
      refine ⟨svc, pid, ?_, rfl⟩
      rw [Launch.pids, hsvc, if_neg (by simp)]
      exact hpid
    next => contradiction

theorem started_pids (dl : Linker) (l : Launch) : ((l.started dl).map (·.pid)).Sublist l.pids := by
  unfold Launch.started Launch.pids
  cases l.svc with
  | none => exact List.nil_sublist _
  | some svc =>
    dsimp only
    rw [if_neg (Option.some_ne_none svc)]
    by_cases hdl : dl svc.library = some (some svc)
    · rw [if_pos hdl, List.map_map]
      change ((forkLoop l.pid l.forks).map fun pid => pid).Sublist _
      rw [List.map_id']
    · rw [if_neg hdl]
      exact List.nil_sublist _

theorem started_count (dl : Linker) (l : Launch) (svc : SvcClass) :
    (l.started dl).countP (fun c => c.svc = svc) =
      if dl svc.library = some (some svc) ∧ l.svc = some svc then 1 + l.forks.countP Option.isSome else 0 := by
  unfold Launch.started
  cases l.svc with
  | none => exact (if_neg (fun h => nomatch h.2)).symm
  | some cls =>
    dsimp only
    by_cases hcls : cls = svc
    · subst hcls
      by_cases hdl : dl cls.library = some (some cls)
      · rw [if_pos hdl, if_pos ⟨hdl, rfl⟩, List.countP_map, ← forkLoop_length l.pid]
        exact List.countP_eq_length.mpr fun pid _ => by simp [Container.start]
      · rw [if_neg hdl, if_neg fun h : dl cls.library = some (some cls) ∧ some cls = some cls => hdl h.1]
        rfl
    · have hother : ¬(dl svc.library = some (some svc) ∧ some cls = some svc) :=
        fun h => hcls (Option.some.inj h.2)
      rw [if_neg hother, List.countP_eq_zero]
      intro c hc
      split at hc
      next =>
        obtain ⟨pid, -, rfl⟩ := List.mem_map.mp hc
        exact fun h => hcls (of_decide_eq_true h)
      next => contradiction

/-- After netio has got its channels, every launch of the container adds its
father and the children it got, and the system stands at the start of its runs. -/
theorem system_boots {dl : Linker} (hown : Linker.Own dl) {launches : List Launch}
    (hrange : ∀ l ∈ launches, ∀ pid ∈ l.pids, 0 < pid ∧ pid ≤ 4194304)
    (hpids : (launches.flatMap Launch.pids).Nodup) {unset : Int32 → SockAddrIn} {arrMsg : Int32 → MsgBuf}
    {owner : Int32 → Option FdOwner} {queues : Int32 → List QMsg} {umask : UInt32} {iTcpSvrPort : Int32}
    {unix : SockAddrIn} {calls : InitCalls} {s' : Booting} {r : Reactor} (hport : iTcpSvrPort ≠ 0)
    (htcp : owner calls.tcp.socket = none) (husock : owner calls.usock.socket = none)
    (hapart : calls.tcp.Opens → calls.usock.socket ≠ calls.tcp.socket)
    (howner : ∀ fd c, owner fd ≠ some (FdOwner.conn c)) (hqueues : ∀ key, queues key = [])
    (h : Booting.init ⟨Reactor.new unset arrMsg owner queues, none, umask⟩ iTcpSvrPort true unix calls =
      .ok (0, s')) (hr : s'.runEventLoop = .ok r) :
    SystemStart ⟨r, containers dl launches⟩ ∧ (∀ c ∈ containers dl launches, c.slots = List.range 25) ∧
      ∀ svc, (containers dl launches).countP (fun c => c.svc = svc) =
        (launches.map fun l => if dl svc.library = some (some svc) ∧ l.svc = some svc then
          1 + l.forks.countP Option.isSome else 0).sum := by
  obtain ⟨hzero, -, hep, -, hreactor⟩ := init_outcome hport htcp husock hapart h
  obtain ⟨hopens, hopens', hfd⟩ := hzero.mp rfl
  have hreactor := hreactor rfl
  rw [if_pos ⟨hopens, hopens'⟩] at hep
  have hloop : s'.reactor.runEventLoop = .ok r := by
    rw [Booting.runEventLoop, hep, if_neg] at hr
    · exact hr
    · rintro (hc | hc)
      · contradiction
      · exact hfd (Option.some.inj hc)
  have hstarted : ∀ c ∈ containers dl launches,
      ∃ l ∈ launches, ∃ svc pid, pid ∈ l.pids ∧ c = Container.start svc pid (List.range 25) := by
    intro c hc
    rw [containers_eq hown] at hc
    obtain ⟨l, hl, hc⟩ := List.mem_flatMap.mp hc
    exact ⟨l, hl, started_mem hc⟩
  refine ⟨⟨?_, ?_⟩, ?_, ?_⟩
  · rw [hreactor] at hloop
    exact ⟨_, _, _, _, _, _, _, (hapart hopens).symm, howner, hloop⟩
  · refine ⟨fun key => ?_, rfl, ?_, ?_, ?_⟩
    · have hsame := runEventLoop_queues hloop
      rw [hreactor] at hsame
      exact (congrFun hsame key).trans (hqueues key)
    · intro c hc
      obtain ⟨l, hl, svc, pid, hpid, rfl⟩ := hstarted c hc
      rfl
    · intro c hc
      obtain ⟨l, hl, svc, pid, hpid, rfl⟩ := hstarted c hc
      obtain ⟨hpos, hmax⟩ := hrange l hl pid hpid
      refine ⟨hpos, ?_, ?_⟩
      · dsimp only [Container.start]
        omega
      · intro i hi
        have hlt := List.mem_range.mp hi
        omega
    · dsimp only [NetioSystem.behind]
      rw [containers_eq hown, List.map_flatMap]
      exact (List.Sublist.flatMap_right launches fun l _ => started_pids dl l).nodup hpids
  · intro c hc
    obtain ⟨l, hl, svc, pid, hpid, rfl⟩ := hstarted c hc
    rfl
  · intro svc
    rw [containers_eq hown, List.countP_flatMap]
    congr 1
    exact List.map_congr_left fun l _ => started_count dl l svc

def sampleLinker : Linker := fun name =>
  if name = SvcClass.library .CSvcTest then some (some .CSvcTest)
  else if name = SvcClass.library .CSvcTest2 then some (some .CSvcTest2)
  else none

theorem sampleLinker_own : Linker.Own sampleLinker := by
  intro svc cls h
  cases svc with
  | CSvcTest => exact (Option.some.inj (Option.some.inj h)).symm
  | CSvcTest2 =>
    rw [sampleLinker, if_neg (by decide)] at h
    exact (Option.some.inj (Option.some.inj h)).symm

/-- One fork of the first launch fails. -/
def sampleLaunches : List Launch :=
  [⟨some (bytes "1"), 100, [some 101, none, some 102, some 103, some 104], rfl⟩,
    ⟨some (bytes "2"), 200, [some 201, some 202, some 203, some 204, some 205], rfl⟩]

theorem system_boots_both : ∃ r, SystemStart ⟨r, containers sampleLinker sampleLaunches⟩ ∧
    (∀ c ∈ containers sampleLinker sampleLaunches, c.slots = List.range 25) ∧
    (∀ svc, (containers sampleLinker sampleLaunches).countP (fun c => c.svc = svc) =
      (sampleLaunches.map fun l => if sampleLinker svc.library = some (some svc) ∧ l.svc = some svc then
        1 + l.forks.countP Option.isSome else 0).sum) := by
  have h : ((sampleBooting []).init 6789 true ⟨0, 0, ⟨0, 0, 0, 0⟩⟩
      ⟨⟨3, 0, 0, 0, 0, 0, 0⟩, ⟨4, 0, 0, 0, 0⟩, 5, false⟩).toOption.any (fun r =>
        decide (r.1 = 0) && r.2.runEventLoop.toOption.isSome) = true := by decide +kernel
  obtain ⟨⟨iRet, s'⟩, hinit, h⟩ := (Option.any_eq_true _ _).mp h
  obtain ⟨hzero, hok⟩ := Bool.and_eq_true_iff.mp h
  obtain ⟨r, hr⟩ := Option.isSome_iff_exists.mp hok
  obtain rfl : iRet = 0 := of_decide_eq_true hzero
  refine ⟨r, system_boots sampleLinker_own (by decide) (by decide) (by decide) (by decide) (by decide)
    (by decide) (fun fd c => ?_) (fun key => ?_) (ok_of_toOption hinit) (ok_of_toOption hr)⟩
  · split <;> simp
  · exact ite_self _

end NetioMiddleware
