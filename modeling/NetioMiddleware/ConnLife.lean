import NetioMiddleware.Netio

namespace NetioMiddleware

/-- The connection, or other open file, a call concerns. -/
def Syscall.who : Syscall → Option FdOwner
  | .accept id _ => some (.conn id)
  | .read who => who
  | .msgsnd who _ _ => who
  | .write who _ => who
  | .close who => who
  | .incr _ _ => none
  | .msgrcv _ _ => none

/-- The calls that concern connection c, in their order. -/
def history (log : List Syscall) (c : Nat) : List Syscall :=
  log.filter (fun e => e.who == some (.conn c))

def Syscall.isMsgsnd : Syscall → Bool
  | .msgsnd _ _ _ => true
  | _ => false

def Syscall.isWrite : Syscall → Bool
  | .write _ _ => true
  | _ => false

/-- The calls on an open connection: reads and requests. -/
def Syscall.isInput : Syscall → Bool
  | .read _ => true
  | .msgsnd _ _ _ => true
  | _ => false

/-- The calls that end a connection: a close, after one write at most. -/
def ending (c : Nat) (tail : List Syscall) : Prop :=
  tail = [.close (some (.conn c))] ∨
    ∃ text, tail = [.write (some (.conn c)) text, .close (some (.conn c))]

/-- The life of connection c: not accepted yet, open on a descriptor whose flag
is no longer READ once a request was made, or over. -/
inductive Life (s : Reactor) (c : Nat) : Prop
  | unborn : s.kernel.accepted ≤ c → history s.kernel.log c = [] → Life s c
  | opened (fd fd₀ : Int32) (h : List Syscall) : s.kernel.owner fd = some (.conn c) →
      history s.kernel.log c = .accept c fd₀ :: h → h.all Syscall.isInput = true →
      h.countP Syscall.isMsgsnd ≤ 1 →
      ((s.m_arrTcpSock fd).enEventFlag = .TCP_SERVER_READ → h.countP Syscall.isMsgsnd = 0) → Life s c
  | ended (fd₀ : Int32) (h tail : List Syscall) : (∀ fd, s.kernel.owner fd ≠ some (.conn c)) →
      c < s.kernel.accepted → history s.kernel.log c = .accept c fd₀ :: (h ++ tail) →
      h.all Syscall.isInput = true → h.countP Syscall.isMsgsnd ≤ 1 → ending c tail → Life s c

theorem history_append (l es : List Syscall) (c : Nat) :
    history (l ++ es) c = history l c ++ history es c := List.filter_append _ _

theorem history_eq_nil {es : List Syscall} {c : Nat} (h : ∀ e ∈ es, e.who ≠ some (.conn c)) :
    history es c = [] :=
  List.filter_eq_nil_iff.mpr (fun e he => by simpa using h e he)

theorem Life.elsewhere {s s' : Reactor} {c : Nat} (hl : Life s c)
    (hhist : history s'.kernel.log c = history s.kernel.log c)
    (howner : ∀ x, s'.kernel.owner x = some (.conn c) ↔ s.kernel.owner x = some (.conn c))
    (hflag : ∀ x, s.kernel.owner x = some (.conn c) →
      (s'.m_arrTcpSock x).enEventFlag = .TCP_SERVER_READ →
      (s.m_arrTcpSock x).enEventFlag = .TCP_SERVER_READ)
    (hmore : s.kernel.accepted ≤ s'.kernel.accepted)
    (hnew : s.kernel.accepted ≤ c → s'.kernel.accepted ≤ c) : Life s' c := by
  cases hl with
  | unborn hc hh => exact .unborn (hnew hc) (hhist.trans hh)
  | opened fd fd₀ h ho hh hin hcount hread =>
    exact .opened fd fd₀ h ((howner fd).mpr ho) (hhist.trans hh) hin hcount
      (fun hr => hread (hflag fd ho hr))
  | ended fd₀ h tail hclosed hc hh hin hcount hend =>
    exact .ended fd₀ h tail (fun fd ho => hclosed fd ((howner fd).mp ho)) (by omega)
      (hhist.trans hh) hin hcount hend

/-- The life of the connection a descriptor is open for. -/
theorem Life.current {s : Reactor} {c : Nat} {fd : Int32} (hl : Life s c) (hw : Wired s)
    (ho : s.kernel.owner fd = some (.conn c)) :
    ∃ fd₀ h, history s.kernel.log c = .accept c fd₀ :: h ∧ h.all Syscall.isInput = true ∧
      h.countP Syscall.isMsgsnd ≤ 1 ∧
      ((s.m_arrTcpSock fd).enEventFlag = .TCP_SERVER_READ → h.countP Syscall.isMsgsnd = 0) := by
  cases hl with
  | unborn hc =>
    have := hw.numbered fd c ho
    omega
  | opened fd' fd₀ h ho' hh hin hcount hread =>
    obtain rfl := hw.single fd fd' c ho ho'
    exact ⟨fd₀, h, hh, hin, hcount, hread⟩
  | ended _ _ _ hclosed => exact absurd ho (hclosed fd)

/-- Reads and requests on one descriptor keep every connection's life, as long
as a request takes the flag away from READ. -/
theorem life_use {s s' : Reactor} (hw : Wired s) (hl : ∀ c, Life s c) (fd : Int32)
    (es : List Syscall) (howner : s'.kernel.owner = s.kernel.owner)
    (haccepted : s'.kernel.accepted = s.kernel.accepted) (hlog : s'.kernel.log = s.kernel.log ++ es)
    (hwho : ∀ e ∈ es, e.who = none ∨ (e.isInput = true ∧ e.who = s.kernel.owner fd))
    (hflag : ∀ x, (s'.m_arrTcpSock x).enEventFlag = .TCP_SERVER_READ →
      (s.m_arrTcpSock x).enEventFlag = .TCP_SERVER_READ)
    (hcount : es.countP Syscall.isMsgsnd = 0 ∨
      (es.countP Syscall.isMsgsnd ≤ 1 ∧ (s.m_arrTcpSock fd).enEventFlag = .TCP_SERVER_READ ∧
        (s'.m_arrTcpSock fd).enEventFlag ≠ .TCP_SERVER_READ)) :
    ∀ c, Life s' c := by
  intro c
  have happend : history s'.kernel.log c = history s.kernel.log c ++ history es c := by
    rw [hlog, history_append]
  by_cases ho : s.kernel.owner fd = some (.conn c)
  · obtain ⟨fd₀, h, hh, hin, hone, hread⟩ := (hl c).current hw ho
    have hes : (history es c).countP Syscall.isMsgsnd ≤ es.countP Syscall.isMsgsnd :=
      List.filter_sublist.countP_le
    have hinput : (history es c).all Syscall.isInput = true := by
      refine List.all_eq_true.mpr (fun e he => ?_)
      obtain ⟨he, hc⟩ := List.mem_filter.mp he
      rcases hwho e he with hn | ⟨hi, _⟩
      · simp [hn] at hc
      · exact hi
    refine .opened fd fd₀ (h ++ history es c) (howner ▸ ho) (by rw [happend, hh]; rfl) ?_ ?_ ?_
    · rw [List.all_append, hin, hinput]; rfl
    · rw [List.countP_append]
      rcases hcount with h0 | ⟨h1, hr, _⟩
      · omega
      · have := hread hr
        omega
    · intro hr
      rw [List.countP_append]
      rcases hcount with h0 | ⟨_, _, hne⟩
      · have := hread (hflag fd hr)
        omega
      · exact absurd hr hne
  · have hnone : history es c = [] := history_eq_nil fun e he hc => by
      rcases hwho e he with hn | ⟨_, hn⟩
      · rw [hn] at hc; contradiction
      · exact ho (hn ▸ hc)
    exact (hl c).elsewhere (by rw [happend, hnone, List.append_nil]) (fun x => by rw [howner])
      (fun x _ => hflag x) (Nat.le_of_eq haccepted.symm) (fun h => haccepted ▸ h)

/-- What is read from or written to a connection before its descriptor is closed
is the end of its life. -/
theorem Life.close_own {s s' : Reactor} {c : Nat} {fd : Int32} {mid : List Syscall} (hl : Life s c)
    (hw : Wired s) (ho : s.kernel.owner fd = some (.conn c))
    (howner : s'.kernel.owner = Function.update s.kernel.owner fd none)
    (haccepted : s'.kernel.accepted = s.kernel.accepted)
    (hhist : history s'.kernel.log c =
      history s.kernel.log c ++ (mid ++ [.close (some (.conn c))]))
    (hmid : (∀ e ∈ mid, e = .read (some (.conn c))) ∨ ∃ text, mid = [.write (some (.conn c)) text]) :
    Life s' c := by
  obtain ⟨fd₀, h, hh, hin, hone, _⟩ := hl.current hw ho
  rw [hh] at hhist
  have hgone : ∀ x, s'.kernel.owner x ≠ some (.conn c) := by
    intro x hx
    rw [howner] at hx
    by_cases hxfd : x = fd
    · simp [hxfd] at hx
    · rw [Function.update_of_ne hxfd] at hx
      exact hxfd (hw.single x fd c hx ho)
  have hborn : c < s'.kernel.accepted := haccepted ▸ hw.numbered fd c ho
  rcases hmid with hreads | ⟨text, rfl⟩
  · refine .ended fd₀ (h ++ mid) [.close (some (.conn c))] hgone hborn ?_ ?_ ?_ (Or.inl rfl)
    · rw [hhist, List.append_assoc]; rfl
    · rw [List.all_append, hin, Bool.true_and]
      exact List.all_eq_true.mpr (fun e he => by rw [hreads e he]; rfl)
    · have hzero : mid.countP Syscall.isMsgsnd = 0 :=
        List.countP_eq_zero.mpr (fun e he => by rw [hreads e he]; simp [Syscall.isMsgsnd])
      rw [List.countP_append]
      omega
  · exact .ended fd₀ h _ hgone hborn hhist hin hone (Or.inr ⟨text, rfl⟩)

/-- Closing a descriptor ends the life of its connection. -/
theorem life_close {s s' : Reactor} (hw : Wired s) (hl : ∀ c, Life s c) (fd : Int32)
    (mid : List Syscall) (howner : s'.kernel.owner = Function.update s.kernel.owner fd none)
    (haccepted : s'.kernel.accepted = s.kernel.accepted)
    (hlog : s'.kernel.log = s.kernel.log ++ (mid ++ [.close (s.kernel.owner fd)]))
    (hflag : ∀ x, x ≠ fd → s'.m_arrTcpSock x = s.m_arrTcpSock x)
    (hmid : (∀ e ∈ mid, e = .read (s.kernel.owner fd) ∨ e.who = none) ∨
      ∃ text, mid = [.write (s.kernel.owner fd) text]) : ∀ c, Life s' c := by
  intro c
  have happend : history s'.kernel.log c =
      history s.kernel.log c ++ history (mid ++ [.close (s.kernel.owner fd)]) c := by
    rw [hlog, history_append]
  by_cases ho : s.kernel.owner fd = some (.conn c)
  · have hown : history (mid ++ [.close (s.kernel.owner fd)]) c =
        history mid c ++ [.close (some (.conn c))] := by
      rw [history_append, ho]
      simp [history, Syscall.who]
    refine (hl c).close_own hw ho howner haccepted (hown ▸ happend) ?_
    rcases hmid with hreads | ⟨text, rfl⟩
    · left
      intro e he
      obtain ⟨he, hc⟩ := List.mem_filter.mp he
      have hread := (hreads e he).resolve_right (fun hn => by simp [hn] at hc)
      rw [hread, ho]
    · right
      exact ⟨text, by rw [ho]; simp [history, Syscall.who]⟩
  · have hnone : history (mid ++ [.close (s.kernel.owner fd)]) c = [] := history_eq_nil fun e he hc => by
      rcases List.mem_append.mp he with he | he
      · rcases hmid with hreads | ⟨text, rfl⟩
        · rcases hreads e he with rfl | hn
          · exact ho hc
          · rw [hn] at hc; contradiction
        · obtain rfl := List.mem_singleton.mp he
          exact ho hc
      · obtain rfl := List.mem_singleton.mp he
        exact ho hc
    refine (hl c).elsewhere (by rw [happend, hnone, List.append_nil]) ?_ ?_
      (Nat.le_of_eq haccepted.symm) (fun h => haccepted ▸ h)
    · intro x
      rw [howner]
      by_cases hx : x = fd
      · subst hx; simp [ho]
      · rw [Function.update_of_ne hx]
    · intro x hx hr
      have hne : x ≠ fd := fun h => ho (h ▸ hx)
      rwa [hflag x hne] at hr

theorem Life.not_owner {s : Reactor} {c : Nat} (hw : Wired s) (hc : s.kernel.accepted ≤ c)
    (fd : Int32) : s.kernel.owner fd ≠ some (.conn c) := by
  intro ho
  have := hw.numbered fd c ho
  omega

theorem Life.before {s : Reactor} {c : Nat} (hl : Life s c) (hw : Wired s)
    (hc : s.kernel.accepted ≤ c) : history s.kernel.log c = [] := by
  cases hl with
  | unborn _ hh => exact hh
  | opened fd _ _ ho => exact absurd ho (Life.not_owner hw hc fd)
  | ended _ _ _ _ hb => omega

theorem life_dropped {s : Reactor} {fd : Int32} (hw : Wired s) (hl : ∀ c, Life s c)
    (hfree : s.kernel.owner fd = none) : ∀ c, Life (s.dropped fd) c := by
  intro c
  have howner : (s.dropped fd).kernel.owner = s.kernel.owner := by
    rw [dropped_owner, ← hfree, Function.update_eq_self]
  have hlog := dropped_log s fd
  by_cases hc : c = s.kernel.accepted
  · subst hc
    refine .ended fd [] _ ?_ (Nat.lt_succ_self _) ?_ rfl (by simp) (Or.inl rfl)
    · rw [howner]
      exact Life.not_owner hw (Nat.le_refl _)
    · rw [hlog, history_append, (hl _).before hw (Nat.le_refl _)]
      simp [history, Syscall.who]
  · refine (hl c).elsewhere ?_ (fun x => by rw [howner]) (fun _ _ h => h) (Nat.le_succ _) ?_
    · have hnil : history [.accept s.kernel.accepted fd,
          .close (some (.conn s.kernel.accepted))] c = [] := by
        simp [history, Syscall.who, Ne.symm hc]
      rw [hlog, history_append, hnil, List.append_nil]
    · intro h
      have : (s.dropped fd).kernel.accepted = s.kernel.accepted + 1 := rfl
      omega

theorem life_accepted {s : Reactor} {fd : Int32} {addr : SockAddrIn} (hw : Wired s)
    (hl : ∀ c, Life s c) (hfree : s.kernel.owner fd = none) : ∀ c, Life (s.accepted fd addr) c := by
  intro c
  obtain ⟨howner, haccepted, hlog, hitem, _⟩ := accepted_frame s fd addr
  by_cases hc : c = s.kernel.accepted
  · subst hc
    refine .opened fd fd [] (by rw [howner]; simp) ?_ rfl (by simp) (fun _ => rfl)
    rw [hlog, history_append, (hl _).before hw (Nat.le_refl _)]
    simp [history, Syscall.who]
  · refine (hl c).elsewhere ?_ ?_ ?_ (by omega) (by omega)
    · have hnil : history [.accept s.kernel.accepted fd] c = [] := by
        simp [history, Syscall.who, Ne.symm hc]
      rw [hlog, history_append, hnil, List.append_nil]
    · intro x
      rw [howner]
      by_cases hx : x = fd
      · subst hx; simp [hfree, Ne.symm hc]
      · rw [Function.update_of_ne hx]
    · intro x ho
      have hx : x ≠ fd := fun h => by rw [h, hfree] at ho; contradiction
      rw [hitem, Function.update_of_ne hx]
      exact id

theorem life_asked {s : Reactor} {fd key : Int32} {buf : Bytes} {sent : Bool} (hw : Wired s)
    (hl : ∀ c, Life s c) (hread : (s.m_arrTcpSock fd).enEventFlag = .TCP_SERVER_READ) :
    ∀ c, Life (s.asked fd key buf sent) c := by
  obtain ⟨howner, _, haccepted⟩ := asked_frame s fd key buf sent
  obtain ⟨es, hlog, hes⟩ := asked_log s fd key buf sent
  have hitem := asked_item s fd key buf sent
  refine life_use hw hl fd _ howner haccepted hlog ?_ ?_ (Or.inr ⟨?_, hread, ?_⟩)
  · intro e he
    simp only [List.mem_append, List.mem_cons, List.not_mem_nil, or_false] at he
    rcases he with (rfl | rfl) | he
    · exact Or.inl rfl
    · exact Or.inr ⟨rfl, rfl⟩
    · rcases hes with rfl | ⟨text, rfl⟩
      · exact absurd he List.not_mem_nil
      · obtain rfl := List.mem_singleton.mp he
        exact Or.inr ⟨rfl, rfl⟩
  · intro x hr
    rw [hitem] at hr
    by_cases hx : x = fd
    · exact hx ▸ hread
    · rwa [Function.update_of_ne hx] at hr
  · rcases hes with rfl | ⟨text, rfl⟩
    all_goals simp [Syscall.isMsgsnd]
  · rw [hitem]
    simp

theorem life_step {s s' : Reactor} {l : NetioLabel} (hw : Wired s) (hl : ∀ c, Life s c)
    (h : StepCase s l s') : ∀ c, Life s' c := by
  cases h with
  | accepts hconn =>
    refine (doConn_preserves (P := fun s => Wired s ∧ ∀ c, Life s c) ?_ ?_ ?_ ⟨hw, hl⟩ hconn).2
    · exact fun s fd hP => hP.1.unregistered
    · exact fun s fd hP hfree => ⟨wired_dropped hP.1, life_dropped hP.1 hP.2 hfree⟩
    · exact fun s fd addr hP hfree _ => ⟨wired_accepted hP.1, life_accepted hP.1 hP.2 hfree⟩
  | idle => exact hl
  | @look fd =>
    exact life_use hw hl fd [.read (s.kernel.owner fd)] rfl rfl rfl (by simp [Syscall.who, Syscall.isInput])
      (fun _ h => h) (Or.inl rfl)
  | @hangup fd =>
    exact life_close hw hl fd [] rfl rfl rfl (fun x hx => Function.update_of_ne hx _ _)
      (Or.inl (fun _ he => by contradiction))
  | @lost fd =>
    refine life_close hw hl fd [.incr (bytes "netio_0") 1, .read (s.kernel.owner fd)] rfl rfl ?_
      (fun _ _ => rfl) (Or.inl ?_)
    · simp [Reactor.lost, Reactor.recvKernel, Kernel.record, Kernel.close]
    · simp [Syscall.who]
  | recv _ _ hread => exact life_asked hw hl hread
  | @send fd =>
    refine life_close hw hl fd [.write (s.kernel.owner fd) (s.m_arrMsg fd).text] rfl rfl ?_
      (fun x hx => Function.update_of_ne hx _ _) (Or.inr ⟨_, rfl⟩)
    simp [Reactor.answered, Reactor.written, Reactor.closed, Kernel.record, Kernel.close]
  | nothing =>
    exact life_use hw hl 0 [] rfl rfl (by simp [Kernel.setQueues]) (by simp) (fun _ h => h) (Or.inl rfl)
  | @respond f origin q oCmd m _ _ _ _ _ _ hadd =>
    obtain ⟨hk, _, _, _, _, _, hitem, _⟩ := addToWatchList_frame hadd
    have hlog : ∃ es, s'.kernel.log = s.kernel.log ++ es ∧ ∀ e ∈ es, e = .msgrcv origin m.text := by
      rw [hk]
      cases f with
      | true => exact ⟨[], by simp [Reactor.received, Kernel.setQueues], by simp⟩
      | false => exact ⟨[.msgrcv origin m.text], rfl, by simp⟩
    obtain ⟨es, hlog, hes⟩ := hlog
    refine life_use hw hl 0 es (by rw [hk]; cases f <;> rfl) (by rw [hk]; cases f <;> rfl) hlog
      (fun e he => Or.inl (by rw [hes e he]; rfl)) ?_ (Or.inl ?_)
    · intro x hr
      rcases hitem with hi | hi
      · rwa [hi] at hr
      · rw [hi] at hr
        by_cases hx : x = oCmd.iFd
        · simp [Reactor.storeItem, Reactor.setItem, hx, responseSock] at hr
        · simpa [Reactor.storeItem, Reactor.setItem, hx, Reactor.received] using hr
    · exact List.countP_eq_zero.mpr (fun e he => by rw [hes e he]; simp [Syscall.isMsgsnd])
  | others =>
    exact life_use hw hl 0 [] rfl rfl (by simp [Kernel.setQueues]) (by simp) (fun _ h => h) (Or.inl rfl)

theorem life_start {s : Reactor} (h : NetioStart s) : ∀ c, Life s c := by
  have : Wired s ∧ ∀ c, Life s c := by
    refine h.induct (P := fun s => Wired s ∧ ∀ c, Life s c) ?_ ?_
    · intro iSvrFd iUSockFd stServaddr unset arrMsg owner queues hne howner
      exact ⟨wired_init howner, fun c => .unborn (Nat.zero_le c) rfl⟩
    · rintro s s' fd op r ⟨hw, hl⟩ _ hfd hadd
      obtain ⟨hk, _, _, _, _, _, hitem, _⟩ := addToWatchList_frame hadd
      have hitem : s'.m_arrTcpSock = s.m_arrTcpSock := hitem.elim id id
      refine ⟨wired_addToWatchList hw (fun _ => hfd) hadd, ?_⟩
      exact life_use hw hl 0 [] (by rw [hk]) (by rw [hk]) (by rw [hk]; simp) (by simp)
        (fun x hr => hitem ▸ hr) (Or.inl rfl)
  exact this.2

theorem life_reach {ok : Reactor → NetioLabel → Prop} {s : Reactor} (h : netio.Reach ok s) (c : Nat) :
    Life s c :=
  netio_invariant (fun _ => life_start) (fun _ _ _ hw hl _ hs => life_step hw hl hs) h c

theorem ending_split {c : Nat} {h pre post tail : List Syscall} {who : Option FdOwner} {text : Bytes}
    (hh : ∀ e ∈ h, e.isWrite = false) (hend : tail = [] ∨ ending c tail)
    (heq : h ++ tail = pre ++ .write who text :: post) : post = [.close (some (.conn c))] := by
  have htail : ∃ before, tail = before ++ .write who text :: post := by
    obtain ⟨before, _, hb⟩ | ⟨rest, hr, ht⟩ := List.append_eq_append_iff.mp heq
    · exact ⟨before, hb⟩
    · cases rest with
      | nil => exact ⟨[], ht.symm⟩
      | cons e rest =>
        obtain rfl := (List.cons.inj ht).1
        exact absurd (hh (.write who text) (by simp [hr])) (by simp [Syscall.isWrite])
  obtain ⟨before, htail⟩ := htail
  rcases hend with rfl | rfl | ⟨text', rfl⟩
  · simp at htail
  · have := congrArg (List.countP Syscall.isWrite) htail
    simp [List.countP_cons, Syscall.isWrite] at this
  · cases before with
    | nil => simpa using (List.cons.inj htail).2.symm
    | cons e before =>
      have := congrArg (List.countP Syscall.isWrite) (List.cons.inj htail).2
      simp [List.countP_cons, Syscall.isWrite] at this

/-- The history of a connection: its accept, reads and at most one request, and
the calls that end it, if it is over. -/
theorem Life.shape {s : Reactor} {c : Nat} (hl : Life s c) :
    history s.kernel.log c = [] ∨ ∃ fd₀ h tail,
      history s.kernel.log c = .accept c fd₀ :: (h ++ tail) ∧ h.all Syscall.isInput = true ∧
      h.countP Syscall.isMsgsnd ≤ 1 ∧
      (tail = [] ∨ (ending c tail ∧ ∀ fd, s.kernel.owner fd ≠ some (.conn c))) := by
  cases hl with
  | unborn _ hh => exact Or.inl hh
  | opened _ fd₀ h _ hh hin hone =>
    exact Or.inr ⟨fd₀, h, [], by rw [hh, List.append_nil], hin, hone, Or.inl rfl⟩
  | ended fd₀ h tail hgone _ hh hin hone hend =>
    exact Or.inr ⟨fd₀, h, tail, hh, hin, hone, Or.inr ⟨hend, hgone⟩⟩

theorem input_not_write {h : List Syscall} (hin : h.all Syscall.isInput = true) :
    ∀ e ∈ h, e.isWrite = false := by
  intro e he
  have := List.all_eq_true.mp hin e he
  cases e with
  | write => contradiction
  | _ => rfl

theorem history_write {log pre post : List Syscall} {c : Nat} {text : Bytes}
    (h : log = pre ++ .write (some (.conn c)) text :: post) :
    history log c = history pre c ++ .write (some (.conn c)) text :: history post c := by
  rw [h, history_append]
  simp [history, Syscall.who]

theorem Life.counts {s : Reactor} {c : Nat} (hl : Life s c) :
    (history s.kernel.log c).countP Syscall.isMsgsnd ≤ 1 ∧
      (history s.kernel.log c).countP Syscall.isWrite ≤ 1 := by
  obtain hnone | ⟨fd₀, h, tail, hh, hin, hone, hend⟩ := hl.shape
  · simp [hnone]
  · have hw : h.countP Syscall.isWrite = 0 :=
      List.countP_eq_zero.mpr (fun e he => by simp [input_not_write hin e he])
    have htail : tail.countP Syscall.isMsgsnd = 0 ∧ tail.countP Syscall.isWrite ≤ 1 := by
      rcases hend with rfl | ⟨rfl | ⟨text, rfl⟩, _⟩
      all_goals simp [List.countP_cons, Syscall.isMsgsnd, Syscall.isWrite]
    have haccept : Syscall.isMsgsnd (.accept c fd₀) = false ∧ Syscall.isWrite (.accept c fd₀) = false :=
      ⟨rfl, rfl⟩
    simp only [hh, List.countP_cons, List.countP_append, haccept.1, haccept.2, Bool.false_eq_true,
      if_false]
    omega

/-- A response written to a connection is followed by its close alone. -/
theorem Life.written {s : Reactor} {c : Nat} {pre post : List Syscall} {text : Bytes} (hl : Life s c)
    (hlog : s.kernel.log = pre ++ .write (some (.conn c)) text :: post) :
    (∀ fd, s.kernel.owner fd ≠ some (.conn c)) ∧ history post c = [.close (some (.conn c))] := by
  have hpost := history_write hlog
  obtain hnone | ⟨fd₀, h, tail, hh, hin, _, hend⟩ := hl.shape
  · simp [hnone] at hpost
  · have heq := hpost.symm.trans hh
    have hinput : ∀ e ∈ Syscall.accept c fd₀ :: h, e.isWrite = false :=
      List.forall_mem_cons.mpr ⟨rfl, input_not_write hin⟩
    refine ⟨?_, ending_split hinput (hend.imp id And.left) heq.symm⟩
    rcases hend with rfl | ⟨_, hgone⟩
    · have hmem : Syscall.write (some (.conn c)) text ∈ Syscall.accept c fd₀ :: (h ++ []) :=
        heq ▸ by simp
      rw [List.append_nil] at hmem
      exact absurd (hinput _ hmem) (by simp [Syscall.isWrite])
    · exact hgone

def Syscall.requestOf (c : Nat) (e : Syscall) : Bool := e.isMsgsnd && e.who == some (.conn c)

def Syscall.responseTo (c : Nat) (e : Syscall) : Bool := e.isWrite && e.who == some (.conn c)

/-- Every connection has at most one request put into a queue and one response
written; once that is written the connection is closed and left alone. -/
theorem connection_served_once {s : Reactor} (h : netio.Reachable s) (c : Nat) :
    s.kernel.log.countP (Syscall.requestOf c) ≤ 1 ∧
    s.kernel.log.countP (Syscall.responseTo c) ≤ 1 ∧
    ∀ pre text post, s.kernel.log = pre ++ .write (some (.conn c)) text :: post →
      (∀ fd, s.kernel.owner fd ≠ some (.conn c)) ∧ .close (some (.conn c)) ∈ post ∧
      ∀ e ∈ post, e ≠ .read (some (.conn c)) ∧ ∀ text', e ≠ .write (some (.conn c)) text' := by
  have hl := life_reach h c
  have hrequest : s.kernel.log.countP (Syscall.requestOf c) =
      (history s.kernel.log c).countP Syscall.isMsgsnd := (List.countP_filter).symm
  have hresponse : s.kernel.log.countP (Syscall.responseTo c) =
      (history s.kernel.log c).countP Syscall.isWrite := (List.countP_filter).symm
  rw [hrequest, hresponse]
  refine ⟨hl.counts.1, hl.counts.2, ?_⟩
  intro pre text post hlog
  obtain ⟨hgone, hclose⟩ := hl.written hlog
  have hmem : ∀ e, e ∈ post → e.who = some (.conn c) → e = .close (some (.conn c)) := by
    intro e he hwho
    have hpost : e ∈ history post c := List.mem_filter.mpr ⟨he, by simp [hwho]⟩
    rw [hclose] at hpost
    exact List.mem_singleton.mp hpost
  refine ⟨hgone, ?_, ?_⟩
  · have hpost : Syscall.close (some (.conn c)) ∈ history post c := by simp [hclose]
    exact (List.mem_filter.mp hpost).1
  · intro e he
    refine ⟨?_, ?_⟩
    · rintro rfl
      exact absurd (hmem _ he rfl) (by simp)
    · rintro text' rfl
      exact absurd (hmem _ he rfl) (by simp)

theorem connection_served_once_sample :
    ∃ s, (netio.Reachable s ∧ .write (some (.conn 0)) [] ∈ s.kernel.log) ∧
      (s.kernel.log.countP (Syscall.requestOf 0) ≤ 1 ∧
      s.kernel.log.countP (Syscall.responseTo 0) ≤ 1 ∧
      ∀ pre text post, s.kernel.log = pre ++ .write (some (.conn 0)) text :: post →
        (∀ fd, s.kernel.owner fd ≠ some (.conn 0)) ∧ .close (some (.conn 0)) ∈ post ∧
        ∀ e ∈ post, e ≠ .read (some (.conn 0)) ∧ ∀ text', e ≠ .write (some (.conn 0)) text') := by
  obtain ⟨s, hs, hw⟩ := sampleRun_reach (fun _ _ => True)
    [.event 3 EPOLLIN { accepts := [.conn 5 ⟨2, 9, ⟨10, 0, 0, 1⟩⟩ true true] },
      .event 5 EPOLLIN { read := some (bytes "cmd=1") }, .event 5 EPOLLIN {}]
    (fun s => s.kernel.log.contains (.write (some (.conn 0)) []))
    (by decide +kernel)
  exact ⟨s, ⟨hs, by simpa using hw⟩, connection_served_once hs 0⟩

end NetioMiddleware
