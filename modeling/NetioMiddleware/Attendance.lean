import NetioMiddleware.Completion
import NetioMiddleware.IdentityCheck
import NetioMiddleware.WatchList

namespace NetioMiddleware

/-- A request of connection c went into the queue with this key, and into no other. -/
def AskedAt (log : List Syscall) (c : Nat) (key : Int32) : Prop :=
  ∃ text, Syscall.msgsnd (some (.conn c)) key text ∈ log

/-- The requests under way whose answer is for a descriptor. -/
def under (pending : List Sender) (fd : Int32) : List Sender := pending.filter (·.iFd = fd)

def flagAt (r : Reactor) (fd : Int32) : EventFlag := (r.m_arrTcpSock fd).enEventFlag

/-- A request that names the port and family of a descriptor's entry. -/
structure Names (r : Reactor) (fd : Int32) (t : Sender) : Prop where
  family : UInt16.ofInt t.ifamily.toInt = (r.m_arrTcpSock fd).stSockAddr_in.sin_family
  port : UInt16.ofInt t.iPort.toInt = (r.m_arrTcpSock fd).stSockAddr_in.sin_port

section

variable (gives : Int32 → Bytes → Prop) (pending : List Sender)

/-- What stands behind a descriptor: no client, or one who has not asked yet, one
whose request is under way, or one whose answer is in the message table. -/
inductive Phase (r : Reactor) (fd : Int32) : Prop
  | other : (∀ c, r.kernel.owner fd ≠ some (.conn c)) → flagAt r fd ≠ .TCP_SERVER_READ →
      flagAt r fd ≠ .TCP_SERVER_SEND → (under pending fd).Perm [] → Phase r fd
  | reading (c : Nat) : r.kernel.owner fd = some (.conn c) → flagAt r fd = .TCP_SERVER_READ →
      r.kernel.epoll fd = some (eventMask .TCP_SERVER_READ) → (under pending fd).Perm [] →
      (∀ key, ¬AskedAt r.kernel.log c key) → Phase r fd
  | waiting (c : Nat) (t : Sender) (key : Int32) : r.kernel.owner fd = some (.conn c) →
      flagAt r fd = .TCP_SERVER_SEND → r.kernel.epoll fd = some (eventMask .TCP_SERVER_READ) →
      (under pending fd).Perm [t] → Names r fd t → routeCmd t.iCmd = some key →
      (∀ k, AskedAt r.kernel.log c k ↔ k = key) → Phase r fd
  | armed (c : Nat) (key : Int32) : r.kernel.owner fd = some (.conn c) →
      flagAt r fd = .TCP_SERVER_SEND → r.kernel.epoll fd = some (eventMask .TCP_SERVER_SEND) →
      (under pending fd).Perm [] → (∀ k, AskedAt r.kernel.log c k ↔ k = key) →
      gives key (r.m_arrMsg fd).text → Phase r fd

/-- Every descriptor is in a phase, and every connection that has asked is open
or was written what its request was answered. -/
structure Attended (r : Reactor) : Prop where
  phase : ∀ fd, Phase gives pending r fd
  asked : ∀ c key, AskedAt r.kernel.log c key → c < r.kernel.accepted ∧
    ((∃ fd, r.kernel.owner fd = some (.conn c)) ∨
      ∃ text, gives key text ∧ .write (some (.conn c)) text ∈ r.kernel.log)

end

theorem masks_ne : eventMask .TCP_SERVER_READ ≠ eventMask .TCP_SERVER_SEND := by decide

section

variable {gives : Int32 → Bytes → Prop} {pending pending' : List Sender} {r r' : Reactor}

theorem askedAt_append {log es : List Syscall} {c : Nat} {key : Int32}
    (hes : ∀ text, Syscall.msgsnd (some (.conn c)) key text ∉ es) :
    AskedAt (log ++ es) c key ↔ AskedAt log c key := by
  constructor
  · rintro ⟨text, hmem⟩
    exact ⟨text, (List.mem_append.mp hmem).resolve_right (hes text)⟩
  · rintro ⟨text, hmem⟩
    exact ⟨text, List.mem_append_left _ hmem⟩

/-- A descriptor that a step does not concern stays in its phase. -/
theorem Phase.kept {fd : Int32} (h : Phase gives pending r fd)
    (howner : r'.kernel.owner fd = r.kernel.owner fd) (hepoll : r'.kernel.epoll fd = r.kernel.epoll fd)
    (hitem : r'.m_arrTcpSock fd = r.m_arrTcpSock fd) (hmsg : r'.m_arrMsg fd = r.m_arrMsg fd)
    (hunder : (under pending' fd).Perm (under pending fd))
    (hasked : ∀ c, r.kernel.owner fd = some (.conn c) → ∀ key,
      AskedAt r'.kernel.log c key ↔ AskedAt r.kernel.log c key) : Phase gives pending' r' fd := by
  have hflag : flagAt r' fd = flagAt r fd := by rw [flagAt, hitem, flagAt]
  cases h with
  | other ho hread hsend hnone =>
    exact .other (howner ▸ ho) (hflag ▸ hread) (hflag ▸ hsend) (hunder.trans hnone)
  | reading c ho hread hmask hnone hnot =>
    exact .reading c (howner ▸ ho) (hflag ▸ hread) (hepoll ▸ hmask) (hunder.trans hnone)
      (fun key => mt (hasked c ho key).mp (hnot key))
  | waiting c t key ho hsend hmask hone hnames hroute honly =>
    refine .waiting c t key (howner ▸ ho) (hflag ▸ hsend) (hepoll ▸ hmask) (hunder.trans hone) ?_ hroute
      (fun k => (hasked c ho k).trans (honly k))
    exact ⟨hitem ▸ hnames.family, hitem ▸ hnames.port⟩
  | armed c key ho hsend hmask hnone honly htext =>
    exact .armed c key (howner ▸ ho) (hflag ▸ hsend) (hepoll ▸ hmask) (hunder.trans hnone)
      (fun k => (hasked c ho k).trans (honly k)) (hmsg ▸ htext)

theorem Phase.client {fd : Int32} {c : Nat} (h : Phase gives pending r fd)
    (hasked : ∃ key, AskedAt r.kernel.log c key) (ho : r.kernel.owner fd = some (.conn c)) :
    flagAt r fd = .TCP_SERVER_SEND := by
  obtain ⟨key, hasked⟩ := hasked
  cases h with
  | other hnot => exact absurd ho (hnot c)
  | reading c' ho' _ _ _ hnot =>
    cases ho.symm.trans ho'
    exact absurd hasked (hnot key)
  | waiting _ _ _ _ hsend => exact hsend
  | armed _ _ _ hsend => exact hsend

/-- A step whose calls are neither requests nor answers, and which leaves the
tables as they are. -/
theorem Attended.of_same (h : Attended gives pending r) (es : List Syscall)
    (howner : r'.kernel.owner = r.kernel.owner) (hepoll : r'.kernel.epoll = r.kernel.epoll)
    (hitem : r'.m_arrTcpSock = r.m_arrTcpSock) (hmsg : r'.m_arrMsg = r.m_arrMsg)
    (hmore : r.kernel.accepted ≤ r'.kernel.accepted) (hlog : r'.kernel.log = r.kernel.log ++ es)
    (hes : ∀ c key text, Syscall.msgsnd (some (.conn c)) key text ∉ es)
    (hunder : ∀ fd, (under pending' fd).Perm (under pending fd)) : Attended gives pending' r' := by
  have hasked : ∀ c key, AskedAt r'.kernel.log c key ↔ AskedAt r.kernel.log c key := by
    intro c key
    rw [hlog]
    exact askedAt_append (hes c key)
  refine ⟨fun fd => ?_, fun c key hc => ?_⟩
  · exact (h.phase fd).kept (congrFun howner fd) (congrFun hepoll fd) (congrFun hitem fd)
      (congrFun hmsg fd) (hunder fd) (fun c _ key => hasked c key)
  · obtain ⟨hlt, ⟨fd, ho⟩ | ⟨text, htext, hwrite⟩⟩ := h.asked c key ((hasked c key).mp hc)
    · exact ⟨by omega, Or.inl ⟨fd, howner ▸ ho⟩⟩
    · exact ⟨by omega, Or.inr ⟨text, htext, hlog ▸ List.mem_append_left _ hwrite⟩⟩

/-- The tables differ at most at one descriptor. -/
structure AtOne (r r' : Reactor) (fd : Int32) : Prop where
  owner : ∀ x, x ≠ fd → r'.kernel.owner x = r.kernel.owner x
  epoll : ∀ x, x ≠ fd → r'.kernel.epoll x = r.kernel.epoll x
  item : ∀ x, x ≠ fd → r'.m_arrTcpSock x = r.m_arrTcpSock x
  msg : ∀ x, x ≠ fd → r'.m_arrMsg x = r.m_arrMsg x

/-- A step at one descriptor. -/
theorem Attended.of_frame (h : Attended gives pending r) {fd : Int32} (he : AtOne r r' fd)
    (es : List Syscall) (hlog : r'.kernel.log = r.kernel.log ++ es)
    (hes : ∀ x c, x ≠ fd → r.kernel.owner x = some (.conn c) →
      ∀ key text, Syscall.msgsnd (some (.conn c)) key text ∉ es)
    (hunder : ∀ x, x ≠ fd → (under pending' x).Perm (under pending x))
    (hphase : Phase gives pending' r' fd)
    (hasked : ∀ c key, AskedAt r'.kernel.log c key → c < r'.kernel.accepted ∧
      ((∃ x, r'.kernel.owner x = some (.conn c)) ∨
        ∃ text, gives key text ∧ .write (some (.conn c)) text ∈ r'.kernel.log)) :
    Attended gives pending' r' := by
  refine ⟨fun x => ?_, hasked⟩
  by_cases hx : x = fd
  · subst hx
    exact hphase
  · refine (h.phase x).kept (he.owner x hx) (he.epoll x hx) (he.item x hx) (he.msg x hx) (hunder x hx) ?_
    intro c ho key
    rw [hlog]
    exact askedAt_append (hes x c hx ho key)

theorem asked_log_sent (r : Reactor) (fd key : Int32) (buf : Bytes) :
    ∃ text, (r.asked fd key buf true).kernel.log = r.kernel.log ++
      [.incr (bytes "netio_0") 1, .read (r.kernel.owner fd), .msgsnd (r.kernel.owner fd) key text] := by
  have hm : (0 : Int) < (MsgBuf.reset.withType REQUEST.toInt).lType := by decide
  refine ⟨((MsgBuf.reset.withType REQUEST.toInt).printCmd (r.stampCmd fd buf)).text, ?_⟩
  simp only [Reactor.asked, Reactor.setFlag, Reactor.setItem, Kernel.msgsnd]
  rw [putMsg_printCmd hm, if_pos rfl]
  simp [Reactor.recvKernel, Kernel.record]

/-- A half-word of an address comes back from the int it is sent as. -/
theorem stamped_half (x : UInt16) : UInt16.ofInt (Int32.ofNat x.toNat).toInt = x := by
  have hx := x.toNat_lt
  have hsame : ((x.toNat : Int) % 2 ^ 16).toNat = x.toNat := by omega
  rw [Int32.toInt_ofNat_of_lt (by omega), UInt16.ofInt, hsame]
  exact UInt16.ofNat_toNat

section

variable (hw : Wired r) (h : Attended gives pending r) {fd : Int32}

include h

theorem under_of_free (ho : ∀ c, r.kernel.owner fd ≠ some (.conn c)) : (under pending fd).Perm [] := by
  cases h.phase fd with
  | other _ _ _ hnone => exact hnone
  | reading _ _ _ _ hnone => exact hnone
  | waiting c _ _ ho' => exact absurd ho' (ho c)
  | armed _ _ _ _ _ hnone => exact hnone

include hw

theorem attended_dropped (ho : r.kernel.owner fd = none) : Attended gives pending (r.dropped fd) := by
  have howner : (r.dropped fd).kernel.owner = r.kernel.owner := by
    rw [dropped_owner, ← ho, Function.update_eq_self]
  have hreg := hw.unregistered ho
  refine h.of_same [.accept r.kernel.accepted fd, .close (some (.conn r.kernel.accepted))] howner ?_ rfl rfl
    (Nat.le_succ _) (dropped_log r fd) (by simp) (fun _ => .refl _)
  simp [Reactor.dropped, Kernel.close, Kernel.accept, ← hreg]

/-- A new client reads; no request is under way for its descriptor. -/
theorem attended_accepted (ha : WatchAgrees r) {addr : SockAddrIn} (ho : r.kernel.owner fd = none) :
    Attended gives pending (r.accepted fd addr) := by
  obtain ⟨howner, haccepted, hlog, hitem, hmsg⟩ := accepted_frame r fd addr
  have hnew : fd ∉ r.m_vecFds := fun hm => (ha.exact fd).mp hm (hw.unregistered ho)
  have hepoll : (r.accepted fd addr).kernel.epoll fd = some (eventMask .TCP_SERVER_READ) := by
    rw [Reactor.accepted, if_neg hnew]
    exact Function.update_self ..
  have hold : ∀ c key, AskedAt (r.accepted fd addr).kernel.log c key ↔ AskedAt r.kernel.log c key := by
    intro c key
    rw [hlog]
    exact askedAt_append (by simp)
  refine h.of_frame ⟨fun x hx => ?_, fun x hx => accepted_epoll addr hx, fun x hx => ?_, fun x _ => ?_⟩ _ hlog
    (by simp) (fun _ _ => .refl _) ?_ (fun c key hc => ?_)
  · rw [howner, Function.update_of_ne hx]
  · rw [hitem, Function.update_of_ne hx]
  · rw [hmsg]
  · refine .reading r.kernel.accepted (by rw [howner, Function.update_self]) ?_ hepoll
      (under_of_free h (by simp [ho])) (fun key hc => ?_)
    · rw [flagAt, hitem, Function.update_self]
    · exact absurd (h.asked _ key ((hold _ key).mp hc)).1 (Nat.lt_irrefl _)
  · obtain ⟨hlt, hopen | hwritten⟩ := h.asked c key ((hold c key).mp hc)
    · obtain ⟨x, hx⟩ := hopen
      have hne : x ≠ fd := by
        rintro rfl
        rw [ho] at hx
        cases hx
      exact ⟨by omega, Or.inl ⟨x, by rw [howner, Function.update_of_ne hne]; exact hx⟩⟩
    · obtain ⟨text, htext, hwrite⟩ := hwritten
      exact ⟨by omega, Or.inr ⟨text, htext, hlog ▸ List.mem_append_left _ hwrite⟩⟩

theorem attended_conn (ha : WatchAgrees r) {l : List AcceptOutcome} (hconn : r.doConn fd l = .ok r') :
    Attended gives pending r' := by
  refine (doConn_preserves (P := fun r => (Wired r ∧ WatchAgrees r) ∧ Attended gives pending r)
    (fun _ _ hr => hr.1.1.unregistered) ?_ ?_ ⟨⟨hw, ha⟩, h⟩ hconn).2
  · rintro r x ⟨⟨hw, ha⟩, h⟩ ho
    exact ⟨⟨wired_dropped hw, watchAgrees_dropped ha (hw.unregistered ho)⟩, attended_dropped hw h ho⟩
  · rintro r x addr ⟨⟨hw, ha⟩, h⟩ ho _
    exact ⟨⟨wired_accepted hw, watchAgrees_accepted ha (hw.unregistered ho)⟩, attended_accepted hw h ha ho⟩

omit h hw in
theorem closed_other (r : Reactor) (fd : Int32) (hnone : (under pending fd).Perm []) :
    Phase gives pending (r.closed fd) fd := by
  refine .other (fun c => ?_) ?_ ?_ hnone
  · simp [Reactor.closed, Kernel.close]
  · simp [flagAt, Reactor.closed, Reactor.setItem, TcpSockItem.reset]
  · simp [flagAt, Reactor.closed, Reactor.setItem, TcpSockItem.reset]

omit h hw in
theorem closed_atOne (r : Reactor) (fd : Int32) : AtOne r (r.closed fd) fd :=
  ⟨fun _ hx => Function.update_of_ne hx _ _, fun _ hx => Function.update_of_ne hx _ _,
    fun _ hx => Function.update_of_ne hx _ _, fun _ _ => rfl⟩

omit hw in
/-- A descriptor of no client, or of one who has not asked, is closed. -/
theorem attended_closed (hflag : flagAt r fd ≠ .TCP_SERVER_SEND) : Attended gives pending (r.closed fd) := by
  have hnone : (under pending fd).Perm [] := by
    cases h.phase fd with
    | other _ _ _ hnone => exact hnone
    | reading _ _ _ _ hnone => exact hnone
    | waiting _ _ _ _ hsend => exact absurd hsend hflag
    | armed _ _ _ hsend => exact absurd hsend hflag
  have hold : ∀ c key, AskedAt (r.closed fd).kernel.log c key ↔ AskedAt r.kernel.log c key :=
    fun c key => askedAt_append (by simp)
  refine h.of_frame (closed_atOne r fd) [.close (r.kernel.owner fd)] rfl (by simp) (fun _ _ => .refl _)
    (closed_other r fd hnone) (fun c key hc => ?_)
  have hc := (hold c key).mp hc
  obtain ⟨hlt, ⟨x, hx⟩ | ⟨text, htext, hwrite⟩⟩ := h.asked c key hc
  · have hne : x ≠ fd := fun heq => hflag (heq ▸ (h.phase x).client ⟨key, hc⟩ hx)
    exact ⟨hlt, Or.inl ⟨x, ((closed_atOne r fd).owner x hne).trans hx⟩⟩
  · exact ⟨hlt, Or.inr ⟨text, htext, List.mem_append_left _ hwrite⟩⟩

omit hw in
/-- The answer is written to the client who has asked for it. -/
theorem attended_answered (hsend : flagAt r fd = .TCP_SERVER_SEND)
    (hmask : r.kernel.epoll fd = some (eventMask .TCP_SERVER_SEND)) :
    Attended gives pending (r.answered fd) := by
  cases h.phase fd with
  | other _ _ hnot => exact absurd hsend hnot
  | reading _ _ hread => rw [hsend] at hread; cases hread
  | waiting _ _ _ _ _ hmask' => exact absurd (Option.some.inj (hmask'.symm.trans hmask)) masks_ne
  | armed c₀ key₀ ho _ _ hnone honly htext =>
    have hlog : (r.answered fd).kernel.log = r.kernel.log ++
        [.write (some (.conn c₀)) (r.m_arrMsg fd).text, .close (r.kernel.owner fd)] := by
      rw [← ho]
      exact List.append_assoc ..
    have hold : ∀ c key, AskedAt (r.answered fd).kernel.log c key ↔ AskedAt r.kernel.log c key := by
      intro c key
      rw [hlog]
      exact askedAt_append (by simp)
    have hframe := closed_atOne (r.written fd) fd
    refine h.of_frame ⟨hframe.owner, hframe.epoll, hframe.item, hframe.msg⟩ _ hlog (by simp)
      (fun _ _ => .refl _) (closed_other (r.written fd) fd hnone) (fun c key hc => ?_)
    have hbefore := (hold c key).mp hc
    obtain ⟨hlt, ⟨x, hx⟩ | ⟨text, htext, hwrite⟩⟩ := h.asked c key hbefore
    · by_cases hne : x = fd
      · subst hne
        cases ho.symm.trans hx
        rw [(honly key).mp hbefore]
        exact ⟨hlt, Or.inr ⟨_, htext, by simp [hlog]⟩⟩
      · exact ⟨hlt, Or.inl ⟨x, (hframe.owner x hne).trans hx⟩⟩
    · exact ⟨hlt, Or.inr ⟨text, htext, hlog ▸ List.mem_append_left _ hwrite⟩⟩

/-- A client who has not asked yet does. -/
theorem attended_asked {key : Int32} {buf : Bytes} {t : Sender} (hread : flagAt r fd = .TCP_SERVER_READ)
    (ht : t = (r.stampCmd fd buf).sender) (hkey : routeCmd t.iCmd = some key)
    (hpend : pending'.Perm (t :: pending)) : Attended gives pending' (r.asked fd key buf true) := by
  obtain ⟨howner, hepoll, haccepted⟩ := asked_frame r fd key buf true
  have hitem := asked_item r fd key buf true
  obtain ⟨text, hlog⟩ := asked_log_sent r fd key buf
  have hfd : t.iFd = fd := by rw [ht]; rfl
  cases h.phase fd with
  | other _ hnot => exact absurd hread hnot
  | waiting _ _ _ _ hsend => rw [hread] at hsend; cases hsend
  | armed _ _ _ hsend => rw [hread] at hsend; cases hsend
  | reading c₀ ho _ hmask hnone hnot =>
    rw [ho] at hlog
    have hunder : ∀ x, (under pending' x).Perm (under (t :: pending) x) := fun x => hpend.filter _
    have hframe : AtOne r (r.asked fd key buf true) fd := by
      refine ⟨fun x _ => by rw [howner], fun x _ => by rw [hepoll], fun x hx => ?_, fun _ _ => rfl⟩
      rw [hitem, Function.update_of_ne hx]
    refine h.of_frame hframe _ hlog ?_ (fun x hx => (hunder x).trans ?_) ?_ (fun c k hc => ?_)
    · intro x c hx hox k text' hmem
      have hck : c = c₀ ∧ k = key ∧ text' = text := by simpa using hmem
      exact hx (hw.single x fd c hox (hck.1 ▸ ho))
    · have hx : t.iFd ≠ x := fun heq => hx (heq.symm.trans hfd)
      rw [under, List.filter_cons_of_neg (by simpa using hx)]
      exact .refl _
    · refine .waiting c₀ t key (by rw [howner, ho]) ?_ (by rw [hepoll, hmask]) ((hunder fd).trans ?_) ?_ hkey
        (fun k => ?_)
      · rw [flagAt, hitem, Function.update_self]
      · rw [under, List.filter_cons_of_pos (by simpa using hfd)]
        exact hnone.cons t
      · rw [ht]
        refine ⟨?_, ?_⟩
        · rw [hitem, Function.update_self]
          exact stamped_half _
        · rw [hitem, Function.update_self]
          exact stamped_half _
      · rw [hlog]
        constructor
        · rintro ⟨text', hmem⟩
          rcases List.mem_append.mp hmem with hmem | hmem
          · exact absurd ⟨text', hmem⟩ (hnot k)
          · have hk : k = key ∧ text' = text := by simpa using hmem
            exact hk.1
        · rintro rfl
          exact ⟨text, by simp⟩
    · rw [hlog] at hc
      obtain ⟨text', hmem⟩ := hc
      rcases List.mem_append.mp hmem with hmem | hmem
      · obtain ⟨hlt, ⟨x, hx⟩ | ⟨text', htext, hwrite⟩⟩ := h.asked c k ⟨text', hmem⟩
        · exact ⟨by omega, Or.inl ⟨x, by rw [howner]; exact hx⟩⟩
        · exact ⟨by omega, Or.inr ⟨text', htext, hlog ▸ List.mem_append_left _ hwrite⟩⟩
      · have hc : c = c₀ := by
          have hck : c = c₀ ∧ k = key ∧ text' = text := by simpa using hmem
          exact hck.1
        subst hc
        exact ⟨by rw [haccepted]; exact hw.numbered fd c ho, Or.inl ⟨fd, by rw [howner, ho]⟩⟩

omit h hw in
theorem respond_atOne {q : Int32 → List QMsg} {oCmd : CCmd} {m : MsgBuf} {i : Int32} {rcvFailed : Bool}
    {origin : Option Nat} (hadd : (r.received q oCmd.iFd m rcvFailed origin).addToWatchList oCmd.iFd
      .TCP_SERVER_SEND (.item (responseSock oCmd)) true = .ok (i, r')) : AtOne r r' oCmd.iFd := by
  obtain ⟨hk, hmsg, _, _, hepolls, hitems, _⟩ := addToWatchList_frame hadd
  have hkernel : (r.received q oCmd.iFd m rcvFailed origin).kernel.owner = r.kernel.owner ∧
      (r.received q oCmd.iFd m rcvFailed origin).kernel.epoll = r.kernel.epoll := by
    cases rcvFailed <;> exact ⟨rfl, rfl⟩
  refine ⟨fun x _ => by rw [hk, hkernel.1], fun x hx => ?_, hitems, fun x hx => ?_⟩
  · rw [hepolls x hx, hkernel.2]
  · rw [hmsg]
    exact Function.update_of_ne hx _ _

omit hw in
/-- The response to a request under way arms the client who has asked. -/
theorem attended_respond (ha : WatchAgrees r) {q : Int32 → List QMsg} {oCmd : CCmd} {m : MsgBuf} {i : Int32}
    {origin : Option Nat} (hpend : pending.Perm (oCmd.sender :: pending'))
    (hgives : ∀ key, routeCmd oCmd.iCmd = some key → gives key m.text)
    (hadd : (r.received q oCmd.iFd m false origin).addToWatchList oCmd.iFd .TCP_SERVER_SEND
      (.item (responseSock oCmd)) true = .ok (i, r')) : Attended gives pending' r' := by
  have hunder : ∀ x, (under pending x).Perm (under (oCmd.sender :: pending') x) := fun x => hpend.filter _
  have hfd : oCmd.sender.iFd = oCmd.iFd := rfl
  have hmem : oCmd.sender ∈ under pending oCmd.iFd :=
    List.mem_filter.mpr ⟨hpend.mem_iff.mpr List.mem_cons_self, by simpa using hfd⟩
  have hframe := respond_atOne hadd
  obtain ⟨hk, hmsg, _⟩ := addToWatchList_frame hadd
  have howner : r'.kernel.owner = r.kernel.owner := by rw [hk]; rfl
  have haccepted : r'.kernel.accepted = r.kernel.accepted := by rw [hk]; rfl
  have hlog : r'.kernel.log = r.kernel.log ++ [.msgrcv origin m.text] := by rw [hk]; rfl
  have hold : ∀ c key, AskedAt r'.kernel.log c key ↔ AskedAt r.kernel.log c key := by
    intro c key
    rw [hlog]
    exact askedAt_append (by simp)
  have empty : ∀ {l : List Sender}, l.Perm [] → oCmd.sender ∈ l → False := by
    intro l hl hin
    rw [List.perm_nil.mp hl] at hin
    contradiction
  cases h.phase oCmd.iFd with
  | other _ _ _ hnone => exact (empty hnone hmem).elim
  | reading _ _ _ _ hnone => exact (empty hnone hmem).elim
  | armed _ _ _ _ _ hnone => exact (empty hnone hmem).elim
  | waiting c₀ t key₀ ho hsend hmask hone hnames hroute honly =>
    obtain rfl : oCmd.sender = t := List.mem_singleton.mp (hone.mem_iff.mp hmem)
    have hin : oCmd.iFd ∈ r.m_vecFds := (ha.exact _).mpr (by simp [hmask])
    have hvalid : (r.received q oCmd.iFd m false origin).sockValid oCmd.iFd (.item (responseSock oCmd)) =
        true := by
      refine sockValid_iff.mpr ⟨?_, hnames.port, hnames.family⟩
      rw [show ((r.received q oCmd.iFd m false origin).m_arrTcpSock oCmd.iFd).enEventFlag = _ from hsend]
      decide
    obtain ⟨_, ⟨_, hskip, _⟩ | ⟨_, ⟨_, hfail⟩ | ⟨_, _, rfl⟩ | ⟨hnew, _⟩⟩⟩ := addToWatchList_cases hadd
    · rw [hvalid] at hskip
      cases hskip
    · rw [if_pos (show oCmd.iFd ∈ (r.received q oCmd.iFd m false origin).m_vecFds from hin)] at hfail
      exact absurd (hmask.symm.trans hfail) (by simp)
    · refine h.of_frame hframe _ hlog (by simp) (fun x hx => ?_) ?_ (fun c key hc => ?_)
      · refine List.Perm.trans ?_ (hunder x).symm
        have hne : oCmd.sender.iFd ≠ x := fun heq => hx (heq.symm.trans hfd)
        rw [under, under, List.filter_cons_of_neg (by simpa using hne)]
      · refine .armed c₀ key₀ ho ?_ ?_ ?_ (fun k => (hold c₀ k).trans (honly k)) ?_
        · simp [flagAt, Reactor.storeItem, Reactor.setItem, responseSock]
        · exact Function.update_self ..
        · have hrest := (hunder oCmd.iFd).symm.trans hone
          rw [under, List.filter_cons_of_pos (by simpa using hfd)] at hrest
          exact hrest.cons_inv
        · have htext : (r.received q oCmd.iFd m false origin).m_arrMsg oCmd.iFd = m := Function.update_self ..
          rw [hmsg, htext]
          exact hgives key₀ hroute
      · obtain ⟨hlt, ⟨x, hx⟩ | ⟨text, htext, hwrite⟩⟩ := h.asked c key ((hold c key).mp hc)
        · exact ⟨haccepted ▸ hlt, Or.inl ⟨x, by rw [howner]; exact hx⟩⟩
        · exact ⟨haccepted ▸ hlt, Or.inr ⟨text, htext, hlog ▸ List.mem_append_left _ hwrite⟩⟩
    · exact absurd hin hnew

end

end

end NetioMiddleware
