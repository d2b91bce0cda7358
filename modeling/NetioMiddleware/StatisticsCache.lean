import NetioMiddleware.CacheRestart
import NetioMiddleware.Channels
import NetioMiddleware.Rounds
import NetioMiddleware.StatisticsBalance

namespace NetioMiddleware

/-- What Get finds under a key that Incr has been called n times for. -/
def counter (n : Nat) : Option Int := if n = 0 then none else some n

/-- A key as it lies in memory, with the bytes behind its NUL. -/
structure StoredKey where
  sKey : Bytes
  behind : Nat → UInt8

namespace CCacheManager

variable (m : CCacheManager)

/-- The bucket of a key as it lies in memory. -/
def bucketOf (k : StoredKey) : Option Nat := m.bucket (fun _ => k.behind) k.sKey

def getOf (seg : Segment) (k : StoredKey) (iValue : Int32) : Int32 × Int32 :=
  m.get (fun _ => k.behind) seg k.sKey iValue

end CCacheManager

/-- A process attaches the segment, or calls Incr with 1 for a key that lies in
memory as it does during the call. -/
inductive StatLabel
  | attach (base : UInt64) (now : Nat → UInt32)
  | incr (i : Nat) (k : StoredKey)

def statStep (s : SharedCache) : StatLabel → Option SharedCache
  | .attach base now => s.step (fun _ _ => 0) (.attach base now)
  | .incr i k => s.step (fun _ => k.behind) (.call i (.incr k.sKey 1))

def statCache : Machine SharedCache StatLabel where
  init s := s = ⟨fun _ => 0, []⟩
  step s l s' := statStep s l = some s'

/-- The keys of the calls, in the order in which the processes make them. -/
def calledKeys (ls : List StatLabel) : List StoredKey :=
  ls.filterMap fun l =>
    match l with
    | .attach _ _ => none
    | .incr _ k => some k

/-- Get finds in every bucket how often Incr was called for a key of the bucket. -/
def BucketsCount (seg : Segment) (keys : List StoredKey) : Prop :=
  ∀ m, LaidOut m → ∀ k p, m.bucketOf k = some p → ∀ iValue,
    Returns iValue (m.getOf seg k iValue) (counter (keys.countP (fun k' => m.bucketOf k' = some p)))

section

variable {m m' : CCacheManager} {seg : Segment} {k k' : StoredKey} {p p' : Nat}

theorem bucketOf_laidOut (hm : LaidOut m) (hm' : LaidOut m') (k : StoredKey) :
    m'.bucketOf k = m.bucketOf k :=
  bucket_laidOut (fun _ => k.behind) hm hm' k.sKey

/-- Get finds the same under all keys of one bucket. -/
theorem getOf_shared (hk : m.bucketOf k = some p) (hk' : m'.bucketOf k' = some p) (seg : Segment)
    (iValue : Int32) : m.getOf seg k iValue = m'.getOf seg k' iValue :=
  (get_of_bucket hk iValue).trans (get_of_bucket hk' iValue).symm

theorem bucketsCount_zeroed : BucketsCount (fun _ => 0) [] := by
  intro m _ k p hp iValue
  rw [CCacheManager.getOf, get_of_bucket hp, if_neg (fun h => h.1 rfl)]
  exact CCacheManager.returns_not_found iValue

theorem bucketsCount_attach {keys : List StoredKey} (h : BucketsCount seg keys) (base : UInt64)
    (now : Nat → UInt32) : BucketsCount (initalize base now seg).2 keys := by
  intro m hm k p hp iValue
  rw [CCacheManager.getOf, get_initalize _ hm base now seg k.sKey iValue]
  exact h m hm k p hp iValue

/-- What Incr leaves, called for a key that lies in memory so. -/
def CCacheManager.incrOf (m : CCacheManager) (seg : Segment) (k : StoredKey) : Segment :=
  (m.incr (fun _ => k.behind) seg k.sKey 1).2

/-- Incr adds one to what Get finds under its key. -/
theorem getOf_incrOf (hp : m.bucketOf k = some p) {n : Nat} (hn : (n : Int) + 1 < 2 ^ 31)
    (h : ∀ iValue, Returns iValue (m.getOf seg k iValue) (counter n)) (iValue : Int32) :
    Returns iValue (m.getOf (m.incrOf seg k) k iValue) (counter (n + 1)) := by
  have hone : (1 : Int32).toInt = 1 := by decide
  rw [CCacheManager.getOf, CCacheManager.incrOf, CCacheManager.incr_eq_set hp, CCacheManager.get_set hp,
    counter, if_neg (Nat.succ_ne_zero n)]
  have hfind := h 0
  rw [CCacheManager.getOf] at hfind
  by_cases hzero : n = 0
  · rw [counter, if_pos hzero] at hfind
    rw [if_neg hfind.1, hzero]
    exact ⟨rfl, hone⟩
  · rw [counter, if_neg hzero] at hfind
    rw [if_pos hfind.1]
    refine ⟨rfl, ?_⟩
    rw [toInt_add_of_fits (by rw [hfind.2, hone]; omega) (by rw [hfind.2, hone]; omega), hfind.2, hone]
    omega

theorem bucketsCount_incr (hm' : LaidOut m') {keys : List StoredKey} (h : BucketsCount seg keys)
    (hlen : keys.length + 1 < 2 ^ 31) (k' : StoredKey) :
    BucketsCount (m'.incrOf seg k') (keys ++ [k']) := by
  intro m hm k p hp iValue
  have hsame := bucketOf_laidOut hm hm' k'
  have hle := List.countP_le_length (p := fun k' => m.bucketOf k' = some p) (l := keys)
  rw [List.countP_append, List.countP_singleton]
  cases hkey : m.bucketOf k' with
  | none =>
    have hidle : m'.incrOf seg k' = seg := run_of_bucket_none (c := .incr k'.sKey 1) (hsame.trans hkey)
    rw [hidle, if_neg (by simp)]
    exact h m hm k p hp iValue
  | some p' =>
    by_cases heq : p' = p
    · subst heq
      rw [if_pos (by simp), getOf_shared hp (hsame.trans hkey)]
      refine getOf_incrOf (hsame.trans hkey) (by omega) (fun iValue => ?_) iValue
      rw [← getOf_shared hp (hsame.trans hkey)]
      exact h m hm k p' hp iValue
    · rw [if_neg (by simpa using heq), Nat.add_zero, CCacheManager.getOf, CCacheManager.get_congr hp]
      · exact h m hm k p hp iValue
      · intro q hq
        have hapart := buckets_apart hm hp hkey (Ne.symm heq) hq
        exact CCacheManager.run_frame (c := .incr k'.sKey 1) (hsame.trans hkey) hapart

/-- Every run of attaching and counting processes. -/
theorem bucketsCount_run {ok : SharedCache → StatLabel → Prop} {s s' : SharedCache} (hs : s.Inv)
    {keys : List StoredKey} (h : BucketsCount s.seg keys) {ls : List StatLabel}
    (hlen : keys.length + (calledKeys ls).length < 2 ^ 31) (hrun : statCache.Run ok s ls s') :
    s'.Inv ∧ BucketsCount s'.seg (keys ++ calledKeys ls) := by
  induction hrun generalizing keys with
  | nil => exact ⟨hs, by simpa [calledKeys] using h⟩
  | @cons s s1 s' l ls _ hstep _ ih =>
    cases l with
    | attach base now =>
      have hs1 := @SharedCache.step_inv (fun _ _ => 0) s s1 (.attach base now) hs hstep
      cases hstep
      exact ih hs1 (bucketsCount_attach h base now) hlen
    | incr i k =>
      have hs1 := @SharedCache.step_inv (fun _ => k.behind) s s1 (.call i (.incr k.sKey 1)) hs hstep
      obtain ⟨m, hm, rfl⟩ := Option.map_eq_some_iff.mp hstep
      have hkeys : calledKeys (.incr i k :: ls) = k :: calledKeys ls := rfl
      rw [hkeys, List.length_cons] at hlen
      have hmore := bucketsCount_incr (hs.laidOut m (List.mem_of_getElem? hm)) h (by omega) k
      have hrest := ih hs1 hmore (by rw [List.length_append, List.length_singleton]; omega)
      rwa [hkeys, ← List.singleton_append, ← List.append_assoc]

end

/-- The keys netio has called Incr for. -/
def netioKeys (log : List Syscall) : List Bytes :=
  log.filterMap fun e =>
    match e with
    | .incr key _ => some key
    | _ => none

/-- The reads of connections. -/
def connReads (log : List Syscall) : Nat :=
  log.countP fun e =>
    match e with
    | .read (some (.conn _)) => true
    | _ => false

/-- netio calls Incr for netio_0 once for every read of a connection. -/
def ReadsCounted (log : List Syscall) : Prop :=
  netioKeys log = List.replicate (connReads log) (bytes "netio_0")

theorem ReadsCounted.append {log es : List Syscall} (h : ReadsCounted log) (hes : ReadsCounted es) :
    ReadsCounted (log ++ es) := by
  rw [ReadsCounted, netioKeys, connReads, List.filterMap_append, List.countP_append, List.replicate_add]
  exact congrArg₂ (· ++ ·) h hes

/-- The Incr calls netio has made, and no entry but that of the unix socket says UDP_READ. -/
structure Reads (s : Reactor) : Prop where
  counted : ReadsCounted s.kernel.log
  udp : ∀ fd, (s.m_arrTcpSock fd).enEventFlag = .UDP_READ → fd = s.m_iUSockFd

section

variable {s s' : Reactor}

theorem Reads.of_log (hs : Reads s) (es : List Syscall) (hlog : s'.kernel.log = s.kernel.log ++ es)
    (hes : ReadsCounted es) (husock : s'.m_iUSockFd = s.m_iUSockFd)
    (hflag : ∀ fd, (s'.m_arrTcpSock fd).enEventFlag = .UDP_READ →
      (s.m_arrTcpSock fd).enEventFlag = .UDP_READ) : Reads s' := by
  refine ⟨hlog ▸ hs.counted.append hes, fun fd hfd => ?_⟩
  rw [husock]
  exact hs.udp fd (hflag fd hfd)

theorem flag_update {table : Int32 → TcpSockItem} {item : TcpSockItem} {fd x : Int32}
    (hitem : item.enEventFlag ≠ .UDP_READ)
    (h : (Function.update table fd item x).enEventFlag = .UDP_READ) : (table x).enEventFlag = .UDP_READ := by
  by_cases hx : x = fd
  · subst hx
    rw [Function.update_self] at h
    exact absurd h hitem
  · rwa [Function.update_of_ne hx] at h

theorem reads_start (h : NetioStart s) : Reads s := by
  have hp := prepared_start h
  refine ⟨by rw [hp.silent]; rfl, fun fd hfd => ?_⟩
  by_contra hne
  by_cases hsvr : fd = s.m_iSvrFd
  · rw [hsvr, hp.listening.flagged] at hfd
    cases hfd
  · rw [(hp.unused fd (not_or.mpr ⟨hsvr, hne⟩)).1] at hfd
    cases hfd

theorem reads_closed (hs : Reads s) (fd : Int32) : Reads (s.closed fd) :=
  hs.of_log [.close (s.kernel.owner fd)] rfl rfl rfl
    (fun _ hx => flag_update (show EventFlag.NONE_FLAG ≠ .UDP_READ by decide) hx)

theorem reads_doConn (hw : Wired s) (hs : Reads s) {fd : Int32} {l : List AcceptOutcome}
    (h : s.doConn fd l = .ok s') : Reads s' := by
  refine (doConn_preserves (P := fun r => Wired r ∧ Reads r) (fun _ _ hr => hr.1.unregistered) ?_ ?_
    ⟨hw, hs⟩ h).2
  · exact fun r x hr _ => ⟨wired_dropped hr.1, hr.2.of_log _ (dropped_log r x) rfl rfl (fun _ hx => hx)⟩
  · intro r x addr hr _ _
    obtain ⟨_, _, hlog, hitem, _⟩ := accepted_frame r x addr
    refine ⟨wired_accepted hr.1, hr.2.of_log _ hlog rfl (accepted_rest r x addr).2.1 fun y hy => ?_⟩
    rw [hitem] at hy
    exact flag_update (show EventFlag.TCP_SERVER_READ ≠ .UDP_READ by decide) hy

/-- DoRecv runs for the entries of connections alone. -/
theorem reads_step (hw : Wired s) (hg : Guarded s) (hs : Reads s) {l : NetioLabel}
    (h : StepCase s l s') : Reads s' := by
  have hread : ∀ {fd c es}, s.kernel.owner fd = some (.conn c) → netioKeys es = [] → connReads es = 0 →
      ReadsCounted ([.incr (bytes "netio_0") 1, .read (s.kernel.owner fd)] ++ es) := by
    intro fd c es hc hkeys hreads
    rw [hc]
    exact ReadsCounted.append rfl (by rw [ReadsCounted, hkeys, hreads]; rfl)
  cases h with
  | accepts hconn => exact reads_doConn hw hs hconn
  | idle => exact hs
  | @look fd _ _ _ hflag =>
    refine hs.of_log [.read (s.kernel.owner fd)] rfl ?_ rfl (fun _ hx => hx)
    rw [hs.udp fd hflag, hg.channels.waking.isOpen]
    rfl
  | @hangup fd => exact reads_closed hs fd
  | @lost fd _ _ hreg _ hflag =>
    obtain ⟨c, hc⟩ := hg.connection hw hreg (hg.channels.ne_flagged (Or.inl hflag))
    refine hs.of_log ([.incr (bytes "netio_0") 1, .read (s.kernel.owner fd)] ++
      [.close (s.kernel.owner fd)]) ?_ (hread hc rfl rfl) rfl (fun _ hx => hx)
    simp [Reactor.lost, Reactor.recvKernel, Kernel.record, Kernel.close]
  | @recv fd _ out buf key hreg _ hflag =>
    obtain ⟨c, hc⟩ := hg.connection hw hreg (hg.channels.ne_flagged (Or.inl hflag))
    obtain ⟨es, hlog, hes⟩ := asked_log s fd key buf out.sent
    refine hs.of_log _ hlog (hread hc ?_ ?_) rfl fun x hx => ?_
    · rcases hes with rfl | ⟨_, rfl⟩ <;> rfl
    · rcases hes with rfl | ⟨_, rfl⟩ <;> rfl
    · rw [asked_item] at hx
      exact flag_update (show EventFlag.TCP_SERVER_SEND ≠ .UDP_READ by decide) hx
  | @send fd =>
    have hwritten : Reads (s.written fd) :=
      hs.of_log [.write (s.kernel.owner fd) (s.m_arrMsg fd).text] rfl rfl rfl (fun _ hx => hx)
    exact reads_closed hwritten fd
  | nothing => exact hs.of_log [] (List.append_nil _).symm rfl rfl (fun _ hx => hx)
  | @respond rcvFailed origin _ oCmd m _ _ _ _ _ _ hadd =>
    obtain ⟨hk, _, _, husock, _, _, hitem, _⟩ := addToWatchList_frame hadd
    have hflag : ∀ x, (s'.m_arrTcpSock x).enEventFlag = .UDP_READ →
        (s.m_arrTcpSock x).enEventFlag = .UDP_READ := by
      intro x hx
      rcases hitem with hitem | hitem
      · rwa [hitem] at hx
      · rw [hitem] at hx
        exact flag_update (show EventFlag.TCP_SERVER_SEND ≠ .UDP_READ by decide) hx
    have hlog := congrArg Kernel.log hk
    cases rcvFailed with
    | true => exact hs.of_log [] (hlog.trans (List.append_nil _).symm) rfl husock hflag
    | false => exact hs.of_log [.msgrcv origin m.text] hlog rfl husock hflag
  | others => exact hs.of_log [] (List.append_nil _).symm rfl rfl (fun _ hx => hx)

end

theorem system_reads {s : NetioSystem} (h : netioSystem.Reach NetioSystem.Spares s) : Reads s.netio := by
  induction h with
  | init hs => exact reads_start hs.netio
  | @step s s' l hreach _ hstep ih =>
    cases l with
    | netio l =>
      have hw := wired_reach (system_netio hreach)
      exact reads_step hw (systemGuarded_reach hreach).net ih (netio_step_case hw (system_netio_step hstep).1)
    | process i sent =>
      obtain ⟨_, hnetio⟩ := system_process_step hstep []
      rw [hnetio]
      exact ⟨ih.counted, ih.udp⟩

theorem system_ownKeys {ok : NetioSystem → SystemLabel → Prop} {s : NetioSystem}
    (h : netioSystem.Reach ok s) : OwnKeys s.procs := by
  obtain ⟨entered, hb⟩ := system_simulates (P := fun _ _ => True) (fun _ _ _ => trivial)
    (fun _ _ => trivial) (fun _ _ _ _ _ => trivial) h
  have hown : ∀ {b : Backend}, backend.Reach (fun _ _ => True) b → OwnKeys b.procs := by
    intro b hb
    induction hb with
    | init hs => exact ownKeys_start hs
    | step hreach _ hstep ih => exact ownKeys_step (sound_reach hreach) ih hstep
  exact hown hb

theorem statPrefix_mem (svc : SvcClass) : statPrefix svc ∈ keyPrefixes := by
  cases svc <;> simp [statPrefix, keyPrefixes]

theorem statPrefix_ne_netio (svc : SvcClass) : statPrefix svc ≠ bytes "netio_" := by
  cases svc <;> decide

theorem statPrefix_injective {svc svc' : SvcClass} (h : statPrefix svc = statPrefix svc') : svc = svc' := by
  cases svc <;> cases svc' <;> first | rfl | exact absurd h (by decide)

theorem statKey_starts (svc : SvcClass) (pid : Nat) : statPrefix svc <+: statKey svc pid :=
  List.prefix_append _ _

theorem netioKey_starts : bytes "netio_" ∈ keyPrefixes ∧ bytes "netio_" <+: bytes "netio_0" :=
  ⟨by simp [keyPrefixes], List.isPrefixOf_iff_prefix.mp (by decide)⟩

section

variable {m : CCacheManager}

/-- Every key with the prefix of a table has a bucket. -/
theorem bucket_of_prefix (m : CCacheManager) {p : Bytes} (hp : p ∈ keyPrefixes) {k : StoredKey}
    (h : p <+: k.sKey) : ∃ b, m.bucketOf k = some b := by
  rw [CCacheManager.bucketOf, CCacheManager.bucket]
  rcases hashObj_prefix m k.sKey with ⟨hk, _⟩ | ⟨hk, _⟩ | ⟨hk, _⟩ | ⟨_, hnone⟩
  · exact ⟨_, by rw [hk]; rfl⟩
  · exact ⟨_, by rw [hk]; rfl⟩
  · exact ⟨_, by rw [hk]; rfl⟩
  · exact absurd h (hnone p hp)

theorem bucket_apart (hm : LaidOut m) {p p' : Bytes} (hp : p ∈ keyPrefixes) (hp' : p' ∈ keyPrefixes)
    (hne : p ≠ p') {k k' : StoredKey} (h : p <+: k.sKey) (h' : p' <+: k'.sKey) :
    m.bucketOf k ≠ m.bucketOf k' := by
  obtain ⟨b, hb⟩ := bucket_of_prefix m hp h
  obtain ⟨b', hb'⟩ := bucket_of_prefix m hp' h'
  rw [hb, hb']
  exact fun heq => bucket_ne_of_prefix hm hp hp' hne h h' hb hb' (Option.some.inj heq)

/-- netio's table has one bucket, whatever lies behind its key. -/
theorem netio_bucket (hm : LaidOut m) {k k' : StoredKey} (h : bytes "netio_" <+: k.sKey)
    (h' : bytes "netio_" <+: k'.sKey) : m.bucketOf k = m.bucketOf k' := by
  have hone : ∀ k : StoredKey, bytes "netio_" <+: k.sKey → m.bucketOf k = some 68 := by
    intro k h
    have hn : bytes "netio_" ∈ keyPrefixes := by simp [keyPrefixes]
    have hc1 : bytes "c1_" ∈ keyPrefixes := by simp [keyPrefixes]
    have hc2 : bytes "c2_" ∈ keyPrefixes := by simp [keyPrefixes]
    rw [CCacheManager.bucketOf, CCacheManager.bucket]
    rcases hashObj_prefix m k.sKey with ⟨_, hk⟩ | ⟨_, hk⟩ | ⟨hk, _⟩ | ⟨_, hnone⟩
    · exact absurd (prefix_unique hn hc1 h hk) (by decide)
    · exact absurd (prefix_unique hn hc2 h hk) (by decide)
    · obtain ⟨hstart, hnums⟩ := hm.netIo
      have hlt := m.NetIoStat.modToUint_lt (fun _ => k.behind) k.sKey
      rw [hnums] at hlt
      rw [hk, Option.map_some, CModHashV1.pBuck, hstart, Nat.lt_one_iff.mp hlt, Nat.zero_mul]
    · exact absurd h (hnone _ hn)
  rw [hone k h, hone k' h']

/-- The calls of the processes of a library. -/
def callsOf (svc : SvcClass) (ls : List StatLabel) : List StoredKey :=
  (calledKeys ls).filter (fun k => (statPrefix svc).isPrefixOf k.sKey)

variable {log : List Syscall} {procs : List Container} {keys : List StoredKey}
  (hlog : ReadsCounted log) (hown : OwnKeys procs)
  (hkeys : (keys.map (·.sKey)).Perm (netioKeys log ++ procs.flatMap (·.stats)))

include hlog hown hkeys

/-- Whose key was called. -/
theorem called_cases {k : StoredKey} (hk : k ∈ keys) :
    k.sKey = bytes "netio_0" ∨ ∃ c ∈ procs, k.sKey = statKey c.svc c.pid := by
  have hmem := hkeys.mem_iff.mp (List.mem_map_of_mem hk)
  rcases List.mem_append.mp hmem with hmem | hmem
  · rw [hlog] at hmem
    exact Or.inl (List.eq_of_mem_replicate hmem)
  · obtain ⟨c, hc, hmem⟩ := List.mem_flatMap.mp hmem
    exact Or.inr ⟨c, hc, hown c hc _ hmem⟩

/-- The calls in the bucket of netio_0 are those of netio. -/
theorem netio_share (hm : LaidOut m) (behind : Nat → UInt8) :
    keys.countP (fun k => m.bucketOf k = m.bucketOf ⟨bytes "netio_0", behind⟩) = connReads log := by
  have hcount : (keys.map (·.sKey)).countP (fun k => k = bytes "netio_0") = connReads log := by
    have hnone : (procs.flatMap (·.stats)).countP (fun k => k = bytes "netio_0") = 0 := by
      refine List.countP_eq_zero.mpr fun key hkey => ?_
      obtain ⟨c, hc, hkey⟩ := List.mem_flatMap.mp hkey
      rw [hown c hc key hkey, decide_eq_true_eq]
      intro heq
      have hstarts := netioKey_starts.2
      rw [← heq] at hstarts
      exact statPrefix_ne_netio c.svc
        (prefix_unique (statPrefix_mem c.svc) netioKey_starts.1 (statKey_starts c.svc c.pid) hstarts)
    rw [hkeys.countP_eq, List.countP_append, hnone, hlog, List.countP_replicate, if_pos (by simp),
      Nat.add_zero]
  rw [← hcount, List.countP_map]
  refine List.countP_congr fun k hk => ?_
  simp only [Function.comp_apply, decide_eq_true_eq]
  rcases called_cases hlog hown hkeys hk with heq | ⟨c, hc, heq⟩
  · exact iff_of_true (netio_bucket hm (heq ▸ netioKey_starts.2) netioKey_starts.2) heq
  · have hstat : statPrefix c.svc <+: k.sKey := heq ▸ statKey_starts c.svc c.pid
    have hapart : m.bucketOf k ≠ m.bucketOf ⟨bytes "netio_0", behind⟩ :=
      bucket_apart hm (statPrefix_mem c.svc) netioKey_starts.1 (statPrefix_ne_netio c.svc) hstat
        netioKey_starts.2
    refine iff_of_false hapart fun hnet => ?_
    have hstarts := netioKey_starts.2
    rw [← hnet] at hstarts
    exact statPrefix_ne_netio c.svc (prefix_unique (statPrefix_mem c.svc) netioKey_starts.1 hstat hstarts)

/-- A library's calls are as many as the requests its processes have executed. -/
theorem own_calls (svc : SvcClass) :
    (keys.filter (fun k => (statPrefix svc).isPrefixOf k.sKey)).length = executed svc procs := by
  have hnet : (netioKeys log).countP (fun k => (statPrefix svc).isPrefixOf k) = 0 := by
    have hne : ¬(statPrefix svc).isPrefixOf (bytes "netio_0") = true := by
      cases svc <;> decide
    rw [hlog, List.countP_replicate, if_neg hne]
  have hmap : keys.countP (fun k => (statPrefix svc).isPrefixOf k.sKey) =
      (keys.map (·.sKey)).countP (fun k => (statPrefix svc).isPrefixOf k) := by
    rw [List.countP_map]
    rfl
  rw [← List.countP_eq_length_filter, hmap, hkeys.countP_eq, List.countP_append, hnet, Nat.zero_add]
  clear hkeys hmap hnet
  induction procs with
  | nil => rfl
  | cons c procs ih =>
    have hrest := ih (fun c' hc' => hown c' (List.mem_cons_of_mem _ hc'))
    have hkeys := hown c List.mem_cons_self
    rw [List.flatMap_cons, List.countP_append, hrest]
    by_cases hsvc : c.svc = svc
    · subst hsvc
      have hall : c.stats.countP (fun k => (statPrefix c.svc).isPrefixOf k) = c.stats.length :=
        List.countP_eq_length.mpr fun key hkey => by
          rw [hkeys key hkey]
          exact List.isPrefixOf_iff_prefix.mpr (statKey_starts c.svc c.pid)
      rw [hall]
      simp [executed]
    · have hall : c.stats.countP (fun k => (statPrefix svc).isPrefixOf k) = 0 := by
        refine List.countP_eq_zero.mpr fun key hkey hstarts => ?_
        rw [hkeys key hkey] at hstarts
        exact hsvc (statPrefix_injective (prefix_unique (statPrefix_mem c.svc) (statPrefix_mem svc)
          (statKey_starts c.svc c.pid) (List.isPrefixOf_iff_prefix.mp hstarts)))
      rw [hall, Nat.zero_add]
      simp [executed, hsvc]

/-- The calls in a bucket of a library's table are those of its processes whose
keys fall there. -/
theorem service_share (hm : LaidOut m) {svc : SvcClass} {k : StoredKey} (hk : statPrefix svc <+: k.sKey) :
    keys.countP (fun k' => m.bucketOf k' = m.bucketOf k) =
      (keys.filter (fun k' => (statPrefix svc).isPrefixOf k'.sKey)).countP
        (fun k' => m.bucketOf k' = m.bucketOf k) := by
  rw [List.countP_filter]
  refine List.countP_congr fun k' hk' => ?_
  simp only [decide_eq_true_eq, Bool.and_eq_true, iff_self_and]
  intro hsame
  refine List.isPrefixOf_iff_prefix.mpr ?_
  rcases called_cases hlog hown hkeys hk' with heq | ⟨c, hc, heq⟩
  · have hapart := bucket_apart hm netioKey_starts.1 (statPrefix_mem svc) (statPrefix_ne_netio svc).symm
      (k := k') (heq ▸ netioKey_starts.2) hk
    exact absurd hsame hapart
  · have hstat : statPrefix c.svc <+: k'.sKey := heq ▸ statKey_starts c.svc c.pid
    by_cases hsvc : c.svc = svc
    · exact hsvc ▸ hstat
    · have hapart := bucket_apart hm (statPrefix_mem c.svc) (statPrefix_mem svc)
        (fun h => hsvc (statPrefix_injective h)) hstat hk
      exact absurd hsame hapart

end

/-- netio and a process of svc_test attach the segment and count once each. -/
def sampleCounts : List StatLabel :=
  [.attach 4096 (fun _ => 7), .incr 0 ⟨bytes "netio_0", fun _ => 0⟩, .attach 8192 (fun _ => 9),
    .incr 1 ⟨bytes "c1_7", fun _ => 5⟩]

theorem sampleCounts_run : ∃ t, t.processes.length = 2 ∧
    statCache.Run (fun _ _ => True) ⟨fun _ => 0, []⟩ sampleCounts t :=
  ⟨_, rfl, .cons trivial rfl (.cons trivial rfl (.cons trivial rfl (.cons trivial rfl .nil)))⟩

end NetioMiddleware
