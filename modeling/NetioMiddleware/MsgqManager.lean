import NetioMiddleware.MsgQueue
import NetioMiddleware.SortedMap

namespace NetioMiddleware

/-- CMsgQueue, without the text of its last error. -/
structure CMsgQueue where
  m_iMsgQId : Int32
  m_iKey : Int32
  deriving DecidableEq

/-- What the kernel returns to one Init: the id msgget gives or -1, and the
result of the msgctl that sets the size. That of the first msgctl is not looked
at. -/
structure MsgqResult where
  msgget : Int32
  msgctl : Int32

namespace CMsgQueue

/-- The constructor. -/
def new : CMsgQueue := ⟨0, 0⟩

def init (q : CMsgQueue) (iKey : Int32) (r : MsgqResult) : Int32 × CMsgQueue :=
  if r.msgget = -1 then (CREATE_MSGQ_FAILED, q)
  else if r.msgctl = -1 then (CNTL_MSGQ_BYTES_FAILED, q)
  else (0, ⟨r.msgget, iKey⟩)

theorem init_eq_zero_iff {q : CMsgQueue} {iKey : Int32} {r : MsgqResult} :
    (q.init iKey r).1 = 0 ↔ r.msgget ≠ -1 ∧ r.msgctl ≠ -1 := by
  have hcreate : CREATE_MSGQ_FAILED ≠ 0 := by decide
  have hcntl : CNTL_MSGQ_BYTES_FAILED ≠ 0 := by decide
  unfold init
  by_cases hget : r.msgget = -1
  · rw [if_pos hget]
    exact ⟨fun h => absurd h hcreate, fun h => absurd hget h.1⟩
  · rw [if_neg hget]
    by_cases hctl : r.msgctl = -1
    · rw [if_pos hctl]
      exact ⟨fun h => absurd h hcntl, fun h => absurd hctl h.2⟩
    · rw [if_neg hctl]
      exact ⟨fun _ => ⟨hget, hctl⟩, fun _ => rfl⟩

theorem init_id {q : CMsgQueue} {iKey : Int32} {r : MsgqResult} (h : r.msgget ≠ -1 ∧ r.msgctl ≠ -1) :
    (q.init iKey r).2.m_iMsgQId = r.msgget := by
  unfold init
  rw [if_neg h.1, if_neg h.2]

end CMsgQueue

structure CMsgQManager where
  m_mapGroupMsgqs : SortedMap Int32 CMsgQueue

namespace CMsgQManager

def new : CMsgQManager := ⟨.empty⟩

/-- AddMsgQueue, which enters the queue whether or not Init has succeeded. -/
def addMsgQueue (m : CMsgQManager) (dwGroupId : Int32) (r : MsgqResult) : Int32 × CMsgQManager :=
  match m.m_mapGroupMsgqs.find? dwGroupId with
  | some _ => (0, m)
  | none => (0, ⟨m.m_mapGroupMsgqs.assign dwGroupId (CMsgQueue.new.init dwGroupId r).2⟩)

/-- GetMsgQueue: its return value and what it leaves in rpMsgq. -/
def getMsgQueue (m : CMsgQManager) (dwGroupId : Int32) (rpMsgq : Option CMsgQueue) :
    Int32 × Option CMsgQueue :=
  match m.m_mapGroupMsgqs.find? dwGroupId with
  | some q => (0, some q)
  | none => (MSGQ_NO_EXIST, rpMsgq)

/-- A manager after some calls of AddMsgQueue, each with what the kernel
returns to Init in it. -/
def addAll (calls : List (Int32 × MsgqResult)) : CMsgQManager :=
  calls.foldl (fun m c => (m.addMsgQueue c.1 c.2).2) new

theorem addMsgQueue_eq_insert (m : CMsgQManager) (dwGroupId : Int32) (r : MsgqResult) :
    (m.addMsgQueue dwGroupId r).2.m_mapGroupMsgqs =
      m.m_mapGroupMsgqs.insert dwGroupId (CMsgQueue.new.init dwGroupId r).2 := by
  unfold addMsgQueue SortedMap.insert
  cases h : m.m_mapGroupMsgqs.find? dwGroupId with
  | some q => rfl
  | none => rfl

theorem find_foldl (calls : List (Int32 × MsgqResult)) (m : CMsgQManager) (g : Int32) :
    (calls.foldl (fun m c => (m.addMsgQueue c.1 c.2).2) m).m_mapGroupMsgqs.find? g =
      (m.m_mapGroupMsgqs.find? g).or
        ((firstValue g calls).map fun r => (CMsgQueue.new.init g r).2) := by
  induction calls generalizing m with
  | nil => rw [List.foldl_nil, firstValue, Option.map_none, Option.or_none]
  | cons c calls ih =>
    rw [List.foldl_cons, ih, addMsgQueue_eq_insert, SortedMap.find?_insert, Option.or_assoc, firstValue]
    by_cases hg : c.1 = g
    · rw [if_pos hg, if_pos hg.symm, hg]
      rfl
    · rw [if_neg hg, if_neg (Ne.symm hg), Option.none_or]

/-- A group is kept with the queue its first AddMsgQueue has made. -/
theorem find_addAll (calls : List (Int32 × MsgqResult)) (g : Int32) :
    (addAll calls).m_mapGroupMsgqs.find? g =
      (firstValue g calls).map fun r => (CMsgQueue.new.init g r).2 :=
  find_foldl calls new g

theorem getMsgQueue_addAll {calls : List (Int32 × MsgqResult)} {g : Int32} {rpMsgq : Option CMsgQueue} :
    ((addAll calls).getMsgQueue g rpMsgq).1 = 0 ↔ ∃ r, firstValue g calls = some r := by
  have hcode : MSGQ_NO_EXIST ≠ 0 := by decide
  unfold getMsgQueue
  rw [find_addAll]
  cases h : firstValue g calls with
  | some r => exact ⟨fun _ => ⟨r, rfl⟩, fun _ => rfl⟩
  | none => exact ⟨fun h => absurd h hcode, fun ⟨r, hr⟩ => by contradiction⟩

theorem getMsgQueue_of_first {calls : List (Int32 × MsgqResult)} {g : Int32} {r : MsgqResult}
    (h : firstValue g calls = some r) (rpMsgq : Option CMsgQueue) :
    (addAll calls).getMsgQueue g rpMsgq = (0, some (CMsgQueue.new.init g r).2) := by
  unfold getMsgQueue
  rw [find_addAll, h, Option.map_some]

end CMsgQManager

/-- The kernel's queues by their ids, after a PutMsg on one of them. -/
def putQueue (kernel : Int32 → List QMsg) (q : CMsgQueue) (pBuf : MsgBuf) (dwBufLen : Nat) (sent : Bool) :
    Int32 → List QMsg :=
  Function.update kernel q.m_iMsgQId (putMsg (kernel q.m_iMsgQId) pBuf dwBufLen sent).2

/-- A group that is given out has been initialised, and two groups have two kernel queues, so that GetMsg
under one is not changed by PutMsg under the other. -/
structure QueuesApart (calls : List (Int32 × MsgqResult)) : Prop where
  inited : ∀ g, ((CMsgQManager.addAll calls).getMsgQueue g none).1 = 0 →
    ∃ r, firstValue g calls = some r ∧ (CMsgQueue.new.init g r).1 = 0
  apart : ∀ g g' q q', g ≠ g' → (CMsgQManager.addAll calls).getMsgQueue g none = (0, some q) →
    (CMsgQManager.addAll calls).getMsgQueue g' none = (0, some q') →
    q.m_iMsgQId ≠ q'.m_iMsgQId ∧ ∀ kernel pBuf dwBufLen sent buf,
      getMsg (putQueue kernel q pBuf dwBufLen sent q'.m_iMsgQId) buf = getMsg (kernel q'.m_iMsgQId) buf

/-- The kernel gives different keys different ids. -/
def KernelIds (calls : List (Int32 × MsgqResult)) : Prop :=
  ∀ c ∈ calls, ∀ c' ∈ calls, c.1 ≠ c'.1 → c.2.msgget ≠ -1 → c'.2.msgget ≠ -1 → c.2.msgget ≠ c'.2.msgget

/-- The groups are kept apart exactly if the kernel refuses nothing to the first AddMsgQueue of each. -/
theorem queuesApart_iff {calls : List (Int32 × MsgqResult)} (hids : KernelIds calls) :
    QueuesApart calls ↔ ∀ g r, firstValue g calls = some r → r.msgget ≠ -1 ∧ r.msgctl ≠ -1 := by
  constructor
  · intro h g r hr
    obtain ⟨r', hr', hinit⟩ := h.inited g (CMsgQManager.getMsgQueue_addAll.mpr ⟨r, hr⟩)
    cases Option.some.inj (hr.symm.trans hr')
    exact CMsgQueue.init_eq_zero_iff.mp hinit
  · intro h
    refine ⟨fun g hg => ?_, fun g g' q q' hne hq hq' => ?_⟩
    · obtain ⟨r, hr⟩ := CMsgQManager.getMsgQueue_addAll.mp hg
      exact ⟨r, hr, CMsgQueue.init_eq_zero_iff.mpr (h g r hr)⟩
    · obtain ⟨r, hr⟩ := CMsgQManager.getMsgQueue_addAll.mp (congrArg Prod.fst hq)
      obtain ⟨r', hr'⟩ := CMsgQManager.getMsgQueue_addAll.mp (congrArg Prod.fst hq')
      rw [CMsgQManager.getMsgQueue_of_first hr] at hq
      rw [CMsgQManager.getMsgQueue_of_first hr'] at hq'
      cases hq
      cases hq'
      have hid : (CMsgQueue.new.init g r).2.m_iMsgQId ≠ (CMsgQueue.new.init g' r').2.m_iMsgQId := by
        rw [CMsgQueue.init_id (h g r hr), CMsgQueue.init_id (h g' r' hr')]
        exact hids _ (firstValue_mem hr) _ (firstValue_mem hr') hne (h g r hr).1 (h g' r' hr').1
      refine ⟨hid, fun kernel pBuf dwBufLen sent buf => ?_⟩
      unfold putQueue
      rw [Function.update_of_ne (Ne.symm hid)]

/-- What main registers. -/
def mainGroups (r : Int32 → MsgqResult) : List (Int32 × MsgqResult) :=
  (NET_IO_BACK_MSQ_KEY :: g_mapCmdDLL).map fun g => (g, r g)

theorem queuesApart_iff_sample :
    QueuesApart (mainGroups fun g => ⟨g - NET_IO_BACK_MSQ_KEY, 0⟩) := by
  have hids : KernelIds (mainGroups fun g => ⟨g - NET_IO_BACK_MSQ_KEY, 0⟩) := by
    intro c hc c' hc' hne _ _
    obtain ⟨g, -, rfl⟩ := List.mem_map.mp hc
    obtain ⟨g', -, rfl⟩ := List.mem_map.mp hc'
    intro heq
    exact hne (Int32.sub_left_inj _ |>.mp heq)
  apply (queuesApart_iff hids).mpr
  intro g r hr
  obtain ⟨g', hg', heq⟩ := List.mem_map.mp (firstValue_mem hr)
  cases heq
  simp only [g_mapCmdDLL, List.mem_cons, List.not_mem_nil, or_false] at hg'
  rcases hg' with rfl | rfl | rfl
  all_goals exact ⟨by decide, by decide⟩

/-- The kernel refuses the back queue and gives the first request queue the id 0. -/
def sampleResult (g : Int32) : MsgqResult := if g = NET_IO_BACK_MSQ_KEY then ⟨-1, 0⟩ else ⟨g - 0xccccd, 0⟩

/-- What is put in the queue of the replies is received as a request. -/
theorem queuesApart_fails : KernelIds (mainGroups sampleResult) ∧ ¬QueuesApart (mainGroups sampleResult) := by
  constructor
  · intro c hc c' hc' hne hget hget'
    obtain ⟨g, -, rfl⟩ := List.mem_map.mp hc
    obtain ⟨g', -, rfl⟩ := List.mem_map.mp hc'
    unfold sampleResult at hget hget' ⊢
    by_cases hg : g = NET_IO_BACK_MSQ_KEY
    · rw [if_pos hg] at hget
      exact absurd rfl hget
    · by_cases hg' : g' = NET_IO_BACK_MSQ_KEY
      · rw [if_pos hg'] at hget'
        exact absurd rfl hget'
      · rw [if_neg hg, if_neg hg']
        exact fun heq => hne ((Int32.sub_left_inj _).mp heq)
  · intro h
    have hback : (CMsgQManager.addAll (mainGroups sampleResult)).getMsgQueue NET_IO_BACK_MSQ_KEY none =
        (0, some ⟨0, 0⟩) := by decide +kernel
    have hrequest : (CMsgQManager.addAll (mainGroups sampleResult)).getMsgQueue 0xccccd none =
        (0, some ⟨0, 0xccccd⟩) := by decide +kernel
    exact (h.apart _ _ _ _ (by decide) hback hrequest).1 rfl

end NetioMiddleware
