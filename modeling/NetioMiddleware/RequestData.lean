import NetioMiddleware.CmdLength
import NetioMiddleware.NetioSystem

namespace NetioMiddleware

/-- Decoding the text of a parsed command gives its data back exactly if the
array holds the whole text. -/
theorem sData_encode_iff {c : CCmd} {buf : Bytes} (hip : PlainIp c.sClientIp)
    (hbuf : c.sData = (initCCmd {} buf).sData) (hnul : 0 ∉ buf) :
    (initCCmd {} (encode c)).sData = c.sData ↔ c.toString.length < MAX_MSG_SIZE - 8 := by
  have hdata := hbuf.trans (initCCmd_sData hnul)
  have hsnul : 0 ∉ c.sData := by
    rw [hbuf]
    exact initCCmd_fresh_no_nul hnul
  have hhead := formatHeader_length c hip.short
  have hlen : c.toString.length = (formatHeader c c.sClientIp).length + c.sData.length := by
    rw [CCmd.toString, List.length_append]
  have htext := encode_eq hip
  rw [cStr_eq_self hsnul] at htext
  generalize hcut : c.sData.take (dataRoom c) = cut at htext
  have hcutnul : 0 ∉ cut := by
    rw [← hcut]
    exact fun h => hsnul (List.mem_of_mem_take h)
  have hdec : (initCCmd {} (encode c)).sData =
      joinPairs (dataMap (SortedMap.empty.insertAll (pairsOf cut))).entries := by
    rw [htext, initCCmd_format {} c hip.clean hip.no_nul hcutnul]
  rw [hdec]
  constructor
  · intro heq
    have hshort := dataMap_length cut
    rw [heq, ← hcut, List.length_take] at hshort
    have hfield := formatHeader_length_pos c c.sClientIp
    simp only [dataRoom, MAX_MSG_SIZE] at *
    by_contra hlong
    omega
  · intro hfits
    have hwhole : cut = c.sData := by
      rw [← hcut]
      apply List.take_of_length_le
      simp only [dataRoom, MAX_MSG_SIZE] at *
      omega
    have hparse := dataMap_parse_join (s := buf)
    rw [hwhole, hdata]
    dsimp only at hparse
    rw [hparse]

/-- DoRecv on bytes that read has returned. -/
theorem doRecv_some {s : Reactor} {fd : Int32} {buf : Bytes} {sent : Bool} (hne : buf ≠ [])
    (hlen : buf.length ≤ 1000) :
    s.doRecv fd (some buf) sent =
      if buf.length = 1000 ∧ 0 ∉ buf then .error .unterminatedBuf
      else if (initCCmd {} buf).iCmd = 0 then .error .assertFailed
      else
        match routeCmd (initCCmd {} buf).iCmd with
        | none => .error .unassignedQueue
        | some key =>
          if inArray MAX_EPOLL_EVENT_NUM fd = false then .error .sockIndex
          else .ok (s.asked fd key buf sent) := by
  cases buf with
  | nil => contradiction
  | cons c rest =>
    unfold Reactor.doRecv
    dsimp only
    rw [if_neg (by omega)]
    rfl

theorem routeCmd_ne_none {iCmd : Int32} : routeCmd iCmd ≠ none ↔ iCmd = 1 ∨ iCmd = 2 := by
  constructor
  · intro h
    obtain ⟨key, hkey⟩ := Option.ne_none_iff_exists'.mp h
    exact (routeCmd_eq_some hkey).imp And.left And.left
  · rintro (rfl | rfl) <;> decide

/-- A request DoRecv puts into a queue. -/
theorem doRecv_asked {s : Reactor} {fd : Int32} {buf : Bytes} {sent : Bool} (hne : buf ≠ [])
    (hlen : buf.length ≤ 999) (hcmd : (initCCmd {} buf).iCmd = 1 ∨ (initCCmd {} buf).iCmd = 2)
    (hfd : inArray MAX_EPOLL_EVENT_NUM fd = true) :
    ∃ key, routeCmd (initCCmd {} buf).iCmd = some key ∧
      s.doRecv fd (some buf) sent = .ok (s.asked fd key buf sent) := by
  obtain ⟨key, hkey⟩ := Option.ne_none_iff_exists'.mp (routeCmd_ne_none.mpr hcmd)
  have hzero : (initCCmd {} buf).iCmd ≠ 0 := by
    rcases hcmd with h | h
    · rw [h]; decide
    · rw [h]; decide
  refine ⟨key, hkey, ?_⟩
  rw [doRecv_some hne (by omega), if_neg (by omega), if_neg hzero, hkey]
  dsimp only
  rw [if_neg (by simp [hfd])]

theorem doRecv_enqueues {s : Reactor} {fd : Int32} {buf : Bytes} (hne : buf ≠ []) (hlen : buf.length ≤ 999)
    (hcmd : (initCCmd {} buf).iCmd = 1 ∨ (initCCmd {} buf).iCmd = 2)
    (hfd : inArray MAX_EPOLL_EVENT_NUM fd = true) :
    ∃ key s', s.doRecv fd (some buf) true = .ok s' ∧ s'.kernel.queues =
      Function.update s.kernel.queues key
        (s.kernel.queues key ++ [cmdMsg REQUEST.toInt (s.stampCmd fd buf)]) := by
  obtain ⟨key, _, hrecv⟩ := doRecv_asked (s := s) hne hlen hcmd hfd
  have htype : 0 < (cmdMsg REQUEST.toInt (s.stampCmd fd buf)).mtype := show (0 : Int) < 1 by omega
  refine ⟨key, _, hrecv, ?_⟩
  rw [asked_queues, offer, if_pos ⟨rfl, htype⟩]

theorem sData_stampCmd_iff (s : Reactor) (fd : Int32) {buf : Bytes} (hnul : 0 ∉ buf) :
    (initCCmd {} (encode (s.stampCmd fd buf))).sData = (initCCmd {} buf).sData ↔
      (s.stampCmd fd buf).toString.length < MAX_MSG_SIZE - 8 := by
  have hip : PlainIp (s.stampCmd fd buf).sClientIp := inetNtoa_plain _
  have hdata : (s.stampCmd fd buf).sData = (initCCmd {} buf).sData := by
    simp only [Reactor.stampCmd]
  have hkept := sData_encode_iff hip hdata hnul
  rwa [hdata] at hkept

/-- What the process that takes a request decodes has the data DoRecv parsed
exactly if the text of the message fits the array. -/
theorem request_data_kept {s : Reactor} {fd : Int32} {buf : Bytes} (hlen : 1 ≤ buf.length ∧ buf.length ≤ 999)
    (hnul : 0 ∉ buf) (hcmd : (initCCmd {} buf).iCmd = 1 ∨ (initCCmd {} buf).iCmd = 2)
    (hfd : inArray MAX_EPOLL_EVENT_NUM fd = true) :
    ∃ key x s', s.doRecv fd (some buf) true = .ok s' ∧
      s'.kernel.queues = Function.update s.kernel.queues key (s.kernel.queues key ++ [x]) ∧
      ∀ before after, (∀ y ∈ before, y.mtype ≠ REQUEST.toInt) →
        ∃ stMsg, getMsg (before ++ x :: after) (MsgBuf.reset.withType REQUEST.toInt) =
            (x.mtext.length, stMsg, before ++ after) ∧
          ((initCCmd {} stMsg.sBuf).sData = (initCCmd {} buf).sData ↔
            (s.stampCmd fd buf).toString.length < MAX_MSG_SIZE - 8) := by
  have hne : buf ≠ [] := List.length_pos_iff.mp (by omega)
  obtain ⟨key, s', hrecv, hqueues⟩ := doRecv_enqueues (s := s) hne hlen.2 hcmd hfd
  refine ⟨key, _, s', hrecv, hqueues, ?_⟩
  intro before after hbefore
  obtain ⟨stMsg, hget, hdec⟩ := getMsg_first (b := after)
    (m := cmdMsg REQUEST.toInt (s.stampCmd fd buf)) hbefore rfl
  refine ⟨stMsg, hget, ?_⟩
  rw [hdec]
  exact sData_stampCmd_iff s fd hnul

/-- A netio that has accepted a connection on descriptor 5. -/
def sampleConn : Reactor := sampleInit.setItem 5 ⟨5, .TCP_SERVER_READ, ⟨2, 4000, ⟨10, 0, 0, 1⟩⟩⟩

theorem request_data_kept_short :
    ∃ key x s', sampleConn.doRecv 5 (some (bytes "cmd=1&a=b")) true = .ok s' ∧
      s'.kernel.queues = Function.update sampleConn.kernel.queues key (sampleConn.kernel.queues key ++ [x]) ∧
      ∀ before after, (∀ y ∈ before, y.mtype ≠ REQUEST.toInt) →
        ∃ stMsg, getMsg (before ++ x :: after) (MsgBuf.reset.withType REQUEST.toInt) =
            (x.mtext.length, stMsg, before ++ after) ∧
          ((initCCmd {} stMsg.sBuf).sData = (initCCmd {} (bytes "cmd=1&a=b")).sData ↔
            (sampleConn.stampCmd 5 (bytes "cmd=1&a=b")).toString.length < MAX_MSG_SIZE - 8) :=
  request_data_kept (by decide) (by decide) (by decide +kernel) (by decide)

/-- A request of 999 bytes. -/
def longRequest : Bytes := bytes "cmd=1&a=" ++ List.replicate 991 120

/-- The header in front of the data leaves no room for the end of the parameter. -/
theorem request_data_cut :
    (1 ≤ longRequest.length ∧ longRequest.length ≤ 999 ∧ 0 ∉ longRequest ∧
      (initCCmd {} longRequest).iCmd = 1) ∧
    ∃ key x s', sampleConn.doRecv 5 (some longRequest) true = .ok s' ∧
      s'.kernel.queues = Function.update sampleConn.kernel.queues key (sampleConn.kernel.queues key ++ [x]) ∧
      x.cmd.sData ≠ (initCCmd {} longRequest).sData := by
  have hlong : ¬(sampleConn.stampCmd 5 longRequest).toString.length < MAX_MSG_SIZE - 8 := by decide +kernel
  have hlen : 1 ≤ longRequest.length ∧ longRequest.length ≤ 999 := by decide +kernel
  have hnul : 0 ∉ longRequest := by decide +kernel
  have hcmd : (initCCmd {} longRequest).iCmd = 1 := by decide +kernel
  have hne : longRequest ≠ [] := List.length_pos_iff.mp (by omega)
  obtain ⟨key, s', hrecv, hqueues⟩ := doRecv_enqueues (s := sampleConn) hne hlen.2 (Or.inl hcmd)
    (show inArray MAX_EPOLL_EVENT_NUM 5 = true by decide)
  refine ⟨⟨hlen.1, hlen.2, hnul, hcmd⟩, key, _, s', hrecv, hqueues, ?_⟩
  rw [← QMsg.cmd_eq]
  intro heq
  exact hlong ((sData_stampCmd_iff sampleConn 5 hnul).mp heq)

/-- DoRecv does not abort, use a queue pointer it has not assigned, or scan
past the end of buf. -/
def RecvSafe (r : Except Halt Reactor) : Prop :=
  r ≠ .error .assertFailed ∧ r ≠ .error .unassignedQueue ∧ r ≠ .error .unterminatedBuf

/-- DoRecv is safe exactly on the bytes that end in buf and whose command has a queue. -/
theorem doRecv_safe_iff (s : Reactor) (fd : Int32) (sent : Bool) {buf : Bytes}
    (hlen : 1 ≤ buf.length ∧ buf.length ≤ 1000) :
    RecvSafe (s.doRecv fd (some buf) sent) ↔
      (buf.length < 1000 ∨ 0 ∈ buf) ∧ ((initCCmd {} buf).iCmd = 1 ∨ (initCCmd {} buf).iCmd = 2) := by
  have hne : buf ≠ [] := List.length_pos_iff.mp (by omega)
  rw [doRecv_some hne hlen.2, ← routeCmd_ne_none]
  split
  next hfull =>
    constructor
    · intro h
      exact absurd rfl h.2.2
    · rintro ⟨hlt | hnul, _⟩
      · omega
      · exact absurd hnul hfull.2
  next hends =>
    have hends : buf.length < 1000 ∨ 0 ∈ buf := by
      by_cases hnul : 0 ∈ buf
      · exact Or.inr hnul
      · have hshort : buf.length ≠ 1000 := fun h => hends ⟨h, hnul⟩
        omega
    split
    next hzero =>
      rw [hzero]
      constructor
      · intro h
        exact absurd rfl h.1
      · rintro ⟨_, hroute⟩
        exact absurd rfl hroute
    next =>
      split
      next hnone =>
        constructor
        · intro h
          exact absurd rfl h.2.1
        · rintro ⟨_, hroute⟩
          exact absurd hnone hroute
      next key hkey =>
        refine ⟨fun _ => ⟨hends, by rw [hkey]; exact Option.some_ne_none key⟩, fun _ => ?_⟩
        split
        next => exact ⟨by simp, by simp, by simp⟩
        next => exact ⟨by simp, by simp, by simp⟩

theorem doRecv_safe_iff_plain :
    RecvSafe (sampleConn.doRecv 5 (some (bytes "cmd=2&a=b")) true) ↔
      ((bytes "cmd=2&a=b").length < 1000 ∨ 0 ∈ bytes "cmd=2&a=b") ∧
        ((initCCmd {} (bytes "cmd=2&a=b")).iCmd = 1 ∨ (initCCmd {} (bytes "cmd=2&a=b")).iCmd = 2) :=
  doRecv_safe_iff sampleConn 5 true (by decide)

/-- No command, a command without a queue, and a read that fills buf. -/
theorem doRecv_unsafe :
    sampleConn.doRecv 5 (some (bytes "a=b")) true = .error .assertFailed ∧
      sampleConn.doRecv 5 (some (bytes "cmd=3")) true = .error .unassignedQueue ∧
      sampleConn.doRecv 5 (some (List.replicate 1000 120)) true = .error .unterminatedBuf := by
  have hnone : (initCCmd {} (bytes "a=b")).iCmd = 0 := by decide +kernel
  have hthree : (initCCmd {} (bytes "cmd=3")).iCmd = 3 := by decide +kernel
  have hlen : (List.replicate 1000 (120 : UInt8)).length = 1000 := List.length_replicate
  have hfull : 0 ∉ List.replicate 1000 (120 : UInt8) := by
    intro h
    exact absurd (List.eq_of_mem_replicate h) (by decide)
  have hne : List.replicate 1000 (120 : UInt8) ≠ [] := List.length_pos_iff.mp (by omega)
  refine ⟨?_, ?_, ?_⟩
  · rw [doRecv_some (by decide) (by decide), if_neg (by decide), if_pos hnone]
  · rw [doRecv_some (by decide) (by decide), if_neg (by decide), hthree]
    rfl
  · rw [doRecv_some hne (by omega), if_pos ⟨hlen, hfull⟩]

end NetioMiddleware
