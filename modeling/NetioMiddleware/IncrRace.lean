import NetioMiddleware.CacheManager
import NetioMiddleware.Machine

namespace NetioMiddleware

/-- The second of the two calls Incr makes, given what Find has returned and left in iTemp. -/
def CModHashV1.incrAdd (behind : Bytes → Nat → UInt8) (t : CModHashV1) (seg : Segment) (sKey : Bytes)
    (iValue i iTemp : Int32) : Int32 × Segment :=
  if i = 0 then t.add behind seg sKey (iTemp + iValue) else t.add behind seg sKey iValue

/-- The value a bucket counts for: what it holds, and zero if it holds nothing. -/
def CModHashV1.counted (seg : Segment) (pBuck : Nat) : Int32 :=
  if seg (iHasSet pBuck) ≠ 0 ∧ seg (iInvalid pBuck) = 0 then seg (node pBuck) else 0

/-- Where a process is in Incr: before Find, between the two calls with what Find gave it, or through. -/
inductive IncrPc
  | find
  | add (i iTemp : Int32)
  | done

structure IncrProcess where
  sKey : Bytes
  iValue : Int32
  pc : IncrPc

namespace IncrProcess

/-- A process that is about to call Incr. -/
def start (job : Bytes × Int32) : IncrProcess := ⟨job.1, job.2, .find⟩

def job (q : IncrProcess) : Bytes × Int32 := (q.sKey, q.iValue)

def step (behind : Bytes → Nat → UInt8) (t : CModHashV1) (seg : Segment) (q : IncrProcess) :
    Option (Segment × IncrProcess) :=
  match q.pc with
  | .find =>
    let found := t.find behind seg q.sKey 0
    some (seg, { q with pc := .add found.1 found.2 })
  | .add i iTemp => some ((t.incrAdd behind seg q.sKey q.iValue i iTemp).2, { q with pc := .done })
  | .done => none

/-- What the process has added so far. -/
def added (q : IncrProcess) : Int32 :=
  match q.pc with
  | .done => q.iValue
  | _ => 0

end IncrProcess

structure IncrState where
  seg : Segment
  processes : List IncrProcess

def IncrState.step (behind : Bytes → Nat → UInt8) (t : CModHashV1) (s : IncrState) (n : Nat) :
    Option IncrState :=
  (s.processes[n]?).bind fun q =>
    (q.step behind t s.seg).map fun r => ⟨r.1, s.processes.set n r.2⟩

/-- Processes attached to one table, each of which runs Incr once; a step is one call of one process. -/
def incrMachine (behind : Bytes → Nat → UInt8) (t : CModHashV1) (seg : Segment)
    (jobs : List (Bytes × Int32)) : Machine IncrState Nat where
  init s := s = ⟨seg, jobs.map IncrProcess.start⟩
  step s n s' := s.step behind t n = some s'

/-- If the process is about to Add, the bucket still counts for what its Find returned. -/
def Undisturbed (pBuck : Nat) (s : IncrState) (n : Nat) : Prop :=
  ∀ q, s.processes[n]? = some q → ∀ i iTemp, q.pc = .add i iTemp →
    CModHashV1.counted s.seg pBuck = if i = 0 then iTemp else 0

section

variable {behind : Bytes → Nat → UInt8} {t : CModHashV1} {seg : Segment} {sKey : Bytes} {pBuck : Nat}

/-- Incr is the two calls, one after the other. -/
theorem incr_eq_calls {m : CCacheManager} (h : m.hashObj sKey = some t) (iValue : Int32) :
    m.incr behind seg sKey iValue =
      t.incrAdd behind seg sKey iValue (t.find behind seg sKey 0).1 (t.find behind seg sKey 0).2 := by
  unfold CCacheManager.incr
  rw [h]
  rfl

theorem counted_eq_find (h : t.pBuck behind sKey = pBuck) :
    CModHashV1.counted seg pBuck =
      if (t.find behind seg sKey 0).1 = 0 then (t.find behind seg sKey 0).2 else 0 := by
  unfold CModHashV1.counted CModHashV1.find
  dsimp only
  rw [h]
  by_cases hset : seg (CModHashV1.iHasSet pBuck) ≠ 0 ∧ seg (CModHashV1.iInvalid pBuck) = 0
  · rw [if_pos hset, if_pos hset, if_pos rfl]
  · rw [if_neg hset, if_neg hset]
    rfl

theorem counted_add (h : t.pBuck behind sKey = pBuck) (v : Int32) :
    CModHashV1.counted (t.add behind seg sKey v).2 pBuck = v := by
  rw [counted_eq_find h, CModHashV1.find_add]
  rfl

/-- What Add leaves in the bucket is what Find had returned and the increment. -/
theorem counted_incrAdd (h : t.pBuck behind sKey = pBuck) (iValue i iTemp : Int32) :
    CModHashV1.counted (t.incrAdd behind seg sKey iValue i iTemp).2 pBuck =
      (if i = 0 then iTemp else 0) + iValue := by
  unfold CModHashV1.incrAdd
  split
  next => rw [counted_add h]
  next => rw [counted_add h, Int32.zero_add]

/-- Add raises the count of the bucket by the increment exactly if the bucket still counts for what Find
had returned. -/
theorem counted_incrAdd_iff (seg : Segment) (h : t.pBuck behind sKey = pBuck)
    (iValue i iTemp : Int32) :
    CModHashV1.counted (t.incrAdd behind seg sKey iValue i iTemp).2 pBuck =
        CModHashV1.counted seg pBuck + iValue ↔
      CModHashV1.counted seg pBuck = if i = 0 then iTemp else 0 := by
  rw [counted_incrAdd h]
  constructor
  · intro heq
    exact ((Int32.add_left_inj iValue).mp heq).symm
  · intro heq
    rw [heq]

end

/-- The sum over a list in which one term is replaced. -/
theorem sum_map_set (f : IncrProcess → Int32) {qs : List IncrProcess} {n : Nat} {q : IncrProcess}
    (h : qs[n]? = some q) (q' : IncrProcess) : ((qs.set n q').map f).sum + f q = (qs.map f).sum + f q' := by
  induction qs generalizing n with
  | nil => simp at h
  | cons q0 qs ih =>
    cases n with
    | zero =>
      cases Option.some.inj h
      simp only [List.set_cons_zero, List.map_cons, List.sum_cons]
      grind
    | succ n =>
      have htail := ih (n := n) h
      simp only [List.set_cons_succ, List.map_cons, List.sum_cons]
      grind

section

variable {behind : Bytes → Nat → UInt8} {t : CModHashV1} {seg : Segment} {jobs : List (Bytes × Int32)}
variable {pBuck : Nat} {s s' : IncrState}

/-- The jobs are never changed, and the bucket counts for what it did and what has been added. -/
structure IncrState.Inv (seg : Segment) (jobs : List (Bytes × Int32)) (pBuck : Nat) (s : IncrState) :
    Prop where
  jobs : s.processes.map IncrProcess.job = jobs
  counts : CModHashV1.counted s.seg pBuck =
    CModHashV1.counted seg pBuck + (s.processes.map IncrProcess.added).sum

/-- A step in terms of the process that makes it. -/
theorem IncrState.step_cases {n : Nat} (h : s.step behind t n = some s') :
    ∃ q, s.processes[n]? = some q ∧
      ((q.pc = .find ∧ s' = ⟨s.seg, s.processes.set n { q with
          pc := .add (t.find behind s.seg q.sKey 0).1 (t.find behind s.seg q.sKey 0).2 }⟩) ∨
        ∃ i iTemp, q.pc = .add i iTemp ∧
          s' = ⟨(t.incrAdd behind s.seg q.sKey q.iValue i iTemp).2,
            s.processes.set n { q with pc := .done }⟩) := by
  obtain ⟨q, hq, h⟩ := Option.bind_eq_some_iff.mp h
  obtain ⟨r, hr, rfl⟩ := Option.map_eq_some_iff.mp h
  refine ⟨q, hq, ?_⟩
  unfold IncrProcess.step at hr
  split at hr
  next hpc => cases hr; exact Or.inl ⟨hpc, rfl⟩
  next i iTemp hpc => cases hr; exact Or.inr ⟨i, iTemp, hpc, rfl⟩
  next => contradiction

theorem jobs_set {n : Nat} {q : IncrProcess} (hq : s.processes[n]? = some q) (pc : IncrPc) :
    (s.processes.set n { q with pc := pc }).map IncrProcess.job = s.processes.map IncrProcess.job := by
  have hjob : (s.processes.map IncrProcess.job)[n]? = some q.job := by
    rw [List.getElem?_map, hq]
    rfl
  obtain ⟨hn, hget⟩ := List.getElem?_eq_some_iff.mp hjob
  rw [List.map_set, show IncrProcess.job { q with pc := pc } = q.job from rfl, ← hget]
  exact List.set_getElem_self hn

theorem IncrState.step_inv {n : Nat} (hb : ∀ job ∈ jobs, t.pBuck behind job.1 = pBuck)
    (hs : s.Inv seg jobs pBuck) (hok : Undisturbed pBuck s n) (h : s.step behind t n = some s') :
    s'.Inv seg jobs pBuck := by
  obtain ⟨q, hq, hcase⟩ := IncrState.step_cases h
  have hkey : t.pBuck behind q.sKey = pBuck := by
    apply hb q.job
    rw [← hs.jobs]
    exact List.mem_map_of_mem (List.mem_of_getElem? hq)
  rcases hcase with ⟨hpc, rfl⟩ | ⟨i, iTemp, hpc, rfl⟩
  · refine ⟨(jobs_set hq _).trans hs.jobs, ?_⟩
    have hsum := sum_map_set IncrProcess.added hq { q with
      pc := .add (t.find behind s.seg q.sKey 0).1 (t.find behind s.seg q.sKey 0).2 }
    have hcounts := hs.counts
    simp only [IncrProcess.added, hpc] at hsum hcounts ⊢
    grind
  · refine ⟨(jobs_set hq _).trans hs.jobs, ?_⟩
    have hsum := sum_map_set IncrProcess.added hq { q with pc := .done }
    have hadd := (counted_incrAdd_iff s.seg hkey q.iValue i iTemp).mpr (hok q hq i iTemp hpc)
    have hcounts := hs.counts
    simp only [IncrProcess.added, hpc] at hsum hcounts hadd ⊢
    grind

theorem incrMachine_inv (hb : ∀ job ∈ jobs, t.pBuck behind job.1 = pBuck)
    (h : (incrMachine behind t seg jobs).Reach (Undisturbed pBuck) s) : s.Inv seg jobs pBuck := by
  apply h.invariant
  · rintro s rfl
    have hjobs : (jobs.map IncrProcess.start).map IncrProcess.job = jobs := by
      rw [List.map_map]
      exact List.map_id jobs
    have hsum : ((jobs.map IncrProcess.start).map IncrProcess.added).sum = 0 := by
      clear hb h hjobs
      induction jobs with
      | nil => rfl
      | cons job jobs ih =>
        rw [List.map_cons, List.map_cons, List.sum_cons, ih]
        rfl
    refine ⟨hjobs, ?_⟩
    rw [hsum, Int32.add_zero]
  · intro s n s' hs hok hstep
    exact IncrState.step_inv hb hs hok hstep

/-- As long as every Add finds the bucket as its Find has left it, the bucket counts all that has been
added, and when all are through every increment. -/
theorem incrMachine_counts (hb : ∀ job ∈ jobs, t.pBuck behind job.1 = pBuck)
    (h : (incrMachine behind t seg jobs).Reach (Undisturbed pBuck) s) :
    CModHashV1.counted s.seg pBuck =
        CModHashV1.counted seg pBuck + (s.processes.map IncrProcess.added).sum ∧
      ((∀ q ∈ s.processes, q.pc = .done) →
        CModHashV1.counted s.seg pBuck = CModHashV1.counted seg pBuck + (jobs.map Prod.snd).sum) := by
  have hinv := incrMachine_inv hb h
  refine ⟨hinv.counts, fun hdone => ?_⟩
  have hadded : s.processes.map IncrProcess.added = jobs.map Prod.snd := by
    rw [← hinv.jobs, List.map_map]
    apply List.map_congr_left
    intro q hq
    simp only [IncrProcess.added, hdone q hq, Function.comp, IncrProcess.job]
  rw [hinv.counts, hadded]

/-- An Incr no other process gets between is undisturbed. -/
theorem incrMachine_undivided (hb : ∀ job ∈ jobs, t.pBuck behind job.1 = pBuck)
    (h : (incrMachine behind t seg jobs).Reach (Undisturbed pBuck) s) {n : Nat} {q : IncrProcess}
    (hq : s.processes[n]? = some q) (hpc : q.pc = .find) :
    (incrMachine behind t seg jobs).Reach (Undisturbed pBuck)
      ⟨(t.incrAdd behind s.seg q.sKey q.iValue (t.find behind s.seg q.sKey 0).1
          (t.find behind s.seg q.sKey 0).2).2, s.processes.set n { q with pc := .done }⟩ := by
  have hkey : t.pBuck behind q.sKey = pBuck := by
    apply hb q.job
    rw [← (incrMachine_inv hb h).jobs]
    exact List.mem_map_of_mem (List.mem_of_getElem? hq)
  have hn := (List.getElem?_eq_some_iff.mp hq).1
  let q1 : IncrProcess :=
    { q with pc := .add (t.find behind s.seg q.sKey 0).1 (t.find behind s.seg q.sKey 0).2 }
  have hq1 : (s.processes.set n q1)[n]? = some q1 := List.getElem?_set_self hn
  have hfind : s.step behind t n = some ⟨s.seg, s.processes.set n q1⟩ := by
    unfold IncrState.step IncrProcess.step
    rw [hq, Option.bind_some, hpc]
    rfl
  have hfound : Undisturbed pBuck s n := by
    intro q' hq' i iTemp hadd
    rw [Option.some.inj (hq'.symm.trans hq), hpc] at hadd
    cases hadd
  have hundisturbed : Undisturbed pBuck ⟨s.seg, s.processes.set n q1⟩ n := by
    intro q' hq' i iTemp hadd
    rw [Option.some.inj (hq'.symm.trans hq1)] at hadd
    cases hadd
    exact counted_eq_find hkey
  have hadd : IncrState.step behind t ⟨s.seg, s.processes.set n q1⟩ n =
      some ⟨(t.incrAdd behind s.seg q.sKey q.iValue (t.find behind s.seg q.sKey 0).1
        (t.find behind s.seg q.sKey 0).2).2, s.processes.set n { q with pc := .done }⟩ := by
    unfold IncrState.step
    rw [hq1, Option.bind_some]
    show some (IncrState.mk _ ((s.processes.set n q1).set n { q with pc := .done })) = _
    rw [List.set_set]
  exact (h.step (l := n) hfound hfind).step (l := n) hundisturbed hadd

theorem incrMachine_follow (h : (incrMachine behind t seg jobs).Reachable s) (ns : List Nat)
    (hs : ns.foldlM (IncrState.step behind t) s = some s') :
    (incrMachine behind t seg jobs).Reachable s' := by
  induction ns generalizing s with
  | nil => cases hs; exact h
  | cons n ns ih =>
    obtain ⟨s1, hs1, hs⟩ := Option.bind_eq_some_iff.mp hs
    exact ih (h.step (l := n) trivial hs1) hs

end

/-- Two processes that count one request each in the table of netio. -/
def sampleTable : CModHashV1 := (initalizeByNodeCount 0 0 0 4 1 Nat.one_pos (fun _ => 0)).1

def sampleJobs : List (Bytes × Int32) := [(bytes "netio_0", 1), (bytes "netio_1", 1)]

theorem sampleJobs_bucket : ∀ job ∈ sampleJobs, sampleTable.pBuck (fun _ _ => 0) job.1 = 68 := by
  decide +kernel

theorem incrMachine_counts_sample :
    ∃ s, (incrMachine (fun _ _ => 0) sampleTable (fun _ => 0) sampleJobs).Reach (Undisturbed 68) s ∧
      (∀ q ∈ s.processes, q.pc = .done) ∧ CModHashV1.counted s.seg 68 = 2 := by
  have hstart : (incrMachine (fun _ _ => 0) sampleTable (fun _ => 0) sampleJobs).Reach (Undisturbed 68)
      ⟨fun _ => 0, sampleJobs.map IncrProcess.start⟩ := .init rfl
  have hone := incrMachine_undivided (n := 0) sampleJobs_bucket hstart rfl rfl
  have htwo := incrMachine_undivided (n := 1) sampleJobs_bucket hone rfl rfl
  refine ⟨_, htwo, ?_, ?_⟩
  · intro q hq
    rcases List.mem_cons.mp hq with rfl | hq
    · rfl
    · cases List.mem_singleton.mp hq
      rfl
  · have hcounts := (incrMachine_counts sampleJobs_bucket htwo).1
    exact hcounts.trans (by decide +kernel)

/-- Both have called Find before the first calls Add. -/
theorem incrMachine_loses :
    ∃ s, (incrMachine (fun _ _ => 0) sampleTable (fun _ => 0) sampleJobs).Reachable s ∧
      (∀ q ∈ s.processes, q.pc = .done) ∧
      CModHashV1.counted s.seg 68 ≠ CModHashV1.counted (fun _ => 0) 68 + (sampleJobs.map Prod.snd).sum := by
  have hstart : (incrMachine (fun _ _ => 0) sampleTable (fun _ => 0) sampleJobs).Reachable
      ⟨fun _ => 0, sampleJobs.map IncrProcess.start⟩ := .init rfl
  refine ⟨_, incrMachine_follow hstart [0, 1, 0, 1] rfl, ?_, ?_⟩
  · intro q hq
    rcases List.mem_cons.mp hq with rfl | hq
    · rfl
    · cases List.mem_singleton.mp hq
      rfl
  · decide +kernel

end NetioMiddleware
