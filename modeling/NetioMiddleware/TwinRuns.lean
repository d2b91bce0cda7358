import NetioMiddleware.BackendSound
import NetioMiddleware.ReplyData
import NetioMiddleware.Rows

namespace NetioMiddleware

theorem takenFrom_cons {p x : QMsg} {l rest : List QMsg} (h : TakenFrom (p :: l) x rest) :
    (p = x ∧ rest = l) ∨ (p.mtype ≠ x.mtype ∧ ∃ r, rest = p :: r ∧ TakenFrom l x r) := by
  obtain ⟨before, after, hl, rfl, hbefore⟩ := h
  cases before with
  | nil =>
    obtain ⟨rfl, rfl⟩ := List.cons.inj hl
    exact Or.inl ⟨rfl, rfl⟩
  | cons q before =>
    obtain ⟨rfl, rfl⟩ := List.cons.inj hl
    refine Or.inr ⟨hbefore p List.mem_cons_self, _, rfl, before, after, rfl, rfl, ?_⟩
    exact fun y hy => hbefore y (List.mem_cons_of_mem p hy)

/-- The messages that two queues with such rows give out stand in one place. -/
theorem Rows.taken {R D : QMsg → QMsg → Prop} (htype : ∀ x y, R x y ∨ D x y → x.mtype = y.mtype)
    {n : Nat} {l l' rest rest' : List QMsg} {x y : QMsg} (h : Rows R D n l l')
    (hx : TakenFrom l x rest) (hy : TakenFrom l' y rest') (hxy : x.mtype = y.mtype) :
    (R x y ∧ Rows R D n rest rest') ∨ (D x y ∧ ∃ m, n = m + 1 ∧ Rows R D m rest rest') := by
  induction h generalizing rest rest' with
  | nil =>
    obtain ⟨before, after, hnil, _⟩ := hx
    cases before <;> contradiction
  | @same n p q l l' hr hrows ih =>
    have hpq := htype p q (Or.inl hr)
    obtain ⟨rfl, rfl⟩ | ⟨hne, r, rfl, hx1⟩ := takenFrom_cons hx
    · obtain ⟨rfl, rfl⟩ | ⟨hne', _⟩ := takenFrom_cons hy
      · exact Or.inl ⟨hr, hrows⟩
      · exact absurd (hpq.symm.trans hxy) hne'
    · obtain ⟨rfl, rfl⟩ | ⟨_, r', rfl, hy1⟩ := takenFrom_cons hy
      · exact absurd (hpq.trans hxy.symm) hne
      · obtain ⟨hrxy, hrest⟩ | ⟨hd, m, rfl, hrest⟩ := ih hx1 hy1
        · exact Or.inl ⟨hrxy, .same hr hrest⟩
        · exact Or.inr ⟨hd, m, rfl, .same hr hrest⟩
  | @other n p q l l' hd hrows ih =>
    have hpq := htype p q (Or.inr hd)
    obtain ⟨rfl, rfl⟩ | ⟨hne, r, rfl, hx1⟩ := takenFrom_cons hx
    · obtain ⟨rfl, rfl⟩ | ⟨hne', _⟩ := takenFrom_cons hy
      · exact Or.inr ⟨hd, n, rfl, hrows⟩
      · exact absurd (hpq.symm.trans hxy) hne'
    · obtain ⟨rfl, rfl⟩ | ⟨_, r', rfl, hy1⟩ := takenFrom_cons hy
      · exact absurd (hpq.trans hxy.symm) hne
      · obtain ⟨hrxy, hrest⟩ | ⟨hd', m, rfl, hrest⟩ := ih hx1 hy1
        · exact Or.inl ⟨hrxy, .other hd hrest⟩
        · exact Or.inr ⟨hd', m + 1, rfl, .other hd hrest⟩

theorem replyTo_app {pid : Nat} {oCmd : CCmd} {svc : SvcClass} {m : QMsg}
    (h : replyTo pid oCmd = some (svc.mqKey, m)) :
    m = cmdMsg (appType (oCmd.iSvcSerialNo.toInt.tdiv 100)) { oCmd with iType := RESPONSE } := by
  unfold replyTo at h
  split at h
  next =>
    obtain ⟨key, _, he⟩ := Option.map_eq_some_iff.mp h
    exact (Prod.mk.inj he).2.symm
  next => exact absurd (Prod.mk.inj (Option.some.inj h)).1.symm (mqKey_ne_back svc)

/-- A resumed handler answers the client. -/
theorem replyTo_end (pid : Nat) (obj3 oCmd : CCmd) : replyTo pid (svcTest2End obj3 oCmd) =
    some (NET_IO_BACK_MSQ_KEY, cmdMsg RESPONSE.toInt (backCmd pid (svcTest2End obj3 oCmd))) := by
  have hserial : (svcTest2End obj3 oCmd).iSvcSerialNo = 0 := rfl
  rw [replyTo, if_neg (not_not.mpr hserial), backCmd]

/-- Two handlers stand at one place of Execute, and where they wait they keep
commands of one sender. -/
def Frame.sameKind : Frame → Frame → Prop
  | .start, .start => True
  | .suspended a, .suspended b => a.sender = b.sender
  | .finished, .finished => True
  | _, _ => False

/-- Two processes that differ at most in the commands their handlers keep. -/
structure Twin (c c' : Container) : Prop where
  svc : c.svc = c'.svc
  pid : c.pid = c'.pid
  slots : c.slots = c'.slots
  maps : c.dispatcher.maps = c'.dispatcher.maps
  frames : ∀ k, (c.frames k).sameKind (c'.frames k)

/-- Twin processes, and queues that are equal but for so many pairs of messages. -/
structure Alike (D : QMsg → QMsg → Prop) (n : Int32 → Nat) (s s' : Backend) : Prop where
  procs : ∀ i : Nat, Option.Rel Twin s.procs[i]? s'.procs[i]?
  queues : ∀ key, Rows Eq D (n key) (s.queues key) (s'.queues key)

theorem Frame.sameKind_refl (f : Frame) : f.sameKind f := by
  cases f with
  | suspended obj3 => exact rfl
  | _ => trivial

theorem Frame.sameKind_symm {f f' : Frame} (h : f.sameKind f') : f'.sameKind f := by
  cases f <;> cases f' <;> first | exact h.symm | exact h

theorem Frame.sameKind_suspended {f f' : Frame} {obj3 : CCmd} (h : f.sameKind f')
    (hf : f = .suspended obj3) : ∃ obj3', f' = .suspended obj3' ∧ obj3.sender = obj3'.sender := by
  subst hf
  cases f' with
  | suspended obj3' => exact ⟨obj3', rfl, h⟩
  | _ => exact h.elim

theorem Twin.symm {c c' : Container} (h : Twin c c') : Twin c' c :=
  ⟨h.svc.symm, h.pid.symm, h.slots.symm, h.maps.symm, fun k => Frame.sameKind_symm (h.frames k)⟩

theorem Alike.symm {D : QMsg → QMsg → Prop} {n : Int32 → Nat} {s s' : Backend} (h : Alike D n s s') :
    Alike (fun x y => D y x) n s' s :=
  ⟨fun i => rel_symm (fun _ _ => Twin.symm) (h.procs i),
    fun key => (h.queues key).flip (fun _ _ => Eq.symm)⟩

theorem Twin.freeHandler {c c' : Container} (h : Twin c c') : c.freeHandler = c'.freeHandler := by
  have hfree := (Prod.mk.inj h.maps).1
  rw [Container.freeHandler, Container.freeHandler, hfree]

theorem Twin.held {c c' : Container} (h : Twin c c') (svc : IService) : c.held svc = c'.held svc := by
  obtain ⟨hfree, hbusy⟩ := Prod.mk.inj h.maps
  rw [Container.held, Container.held, hfree, hbusy]

theorem Twin.released {c c' : Container} (h : Twin c c') (svc : IService) :
    c.released svc = c'.released svc := by
  obtain ⟨hfree, hbusy⟩ := Prod.mk.inj h.maps
  rw [Container.released, Container.released, hfree, hbusy]

/-- Two handlers that stood at one place and move to one place. -/
theorem sameKind_update {frames frames' : Int32 → Frame} (h : ∀ k, (frames k).sameKind (frames' k))
    (k : Int32) {f f' : Frame} (hf : f.sameKind f') :
    ∀ x, (Function.update frames k f x).sameKind (Function.update frames' k f' x) := by
  intro x
  by_cases hx : x = k
  · rw [hx, Function.update_self, Function.update_self]
    exact hf
  · rw [Function.update_of_ne hx, Function.update_of_ne hx]
    exact h x

/-- What a resumed handler replies depends on the sender of the command it keeps. -/
theorem svcTest2End_congr {obj3 obj3' : CCmd} (h : obj3.sender = obj3'.sender) (oCmd : CCmd) :
    svcTest2End obj3 oCmd = svcTest2End obj3' oCmd := by
  obtain ⟨hindex, hfd, hfamily, hcliIp, hport, hcmd⟩ := Sender.mk.inj h
  simp only [svcTest2End, hindex, hfd, hfamily, hcliIp, hport, hcmd]

section

variable {D : QMsg → QMsg → Prop} {n : Int32 → Nat} {queues queues' : Int32 → List QMsg}
  (hq : ∀ key, Rows Eq D (n key) (queues key) (queues' key))

include hq

theorem rows_offer (key : Int32) (m : QMsg) (sent : Bool) :
    ∀ k, Rows Eq D (n k) (offer queues key m sent k) (offer queues' key m sent k) := by
  intro k
  unfold offer
  split
  next =>
    by_cases hk : k = key
    · subst hk
      rw [Function.update_self, Function.update_self]
      exact (hq k).concat rfl
    · rw [Function.update_of_ne hk, Function.update_of_ne hk]
      exact hq k
  next => exact hq k

/-- Two twin processes do the same with one command. -/
theorem processed_twin {c c' : Container} (ht : Twin c c') {oCmd : CCmd} {sent : Bool}
    {maps : SortedMap Int32 IService × SortedMap Int32 IService} {frames : Int32 → Frame}
    {after : Int32 → List QMsg} (h : Processed c queues oCmd sent maps frames after) :
    ∃ frames' after', Processed c' queues' oCmd sent maps frames' after' ∧
      (∀ k, (frames k).sameKind (frames' k)) ∧
      ∀ key, Rows Eq D (n key) (after key) (after' key) := by
  cases h with
  | refuse htype hfree hto =>
    rw [ht.freeHandler] at hfree
    rw [ht.pid] at hto
    rw [ht.maps]
    exact ⟨_, _, .refuse htype hfree hto, ht.frames, rows_offer hq _ _ sent⟩
  | answer htype hfree hclass hret hto =>
    rw [ht.freeHandler] at hfree
    rw [ht.pid] at hto
    rw [ht.svc] at hclass
    rw [ht.maps]
    exact ⟨_, _, .answer htype hfree hclass hret hto, ht.frames, rows_offer hq _ _ sent⟩
  | keep htype hfree hclass hret =>
    rw [ht.freeHandler] at hfree
    rw [ht.svc] at hclass
    rw [ht.held]
    exact ⟨_, _, .keep htype hfree hclass hret, sameKind_update ht.frames _ trivial, hq⟩
  | ask htype hfree hclass =>
    rw [ht.freeHandler] at hfree
    rw [ht.svc] at hclass
    rw [ht.held]
    exact ⟨_, _, .ask htype hfree hclass, sameKind_update ht.frames _ rfl,
      rows_offer hq _ _ sent⟩
  | @resume svc obj3 key m htype hclass hfind hframe hto =>
    obtain ⟨obj3', hframe', hsender⟩ := Frame.sameKind_suspended (ht.frames oCmd.iSvcSerialNo) hframe
    rw [ht.pid, svcTest2End_congr hsender] at hto
    rw [ht.svc] at hclass
    rw [(Prod.mk.inj ht.maps).2] at hfind
    rw [ht.released]
    exact ⟨_, _, .resume htype hclass hfind hframe' hto, sameKind_update ht.frames _ trivial,
      rows_offer hq _ _ sent⟩

end

/-- The pairs that stand out: two different messages of one type. -/
def Differs (D : QMsg → QMsg → Prop) : Prop := ∀ x y, D x y → x.mtype = y.mtype ∧ x ≠ y

section

variable {D : QMsg → QMsg → Prop} {n : Int32 → Nat}

theorem row_mtype (hD : Differs D) {x y : QMsg} (h : x = y ∨ D x y) : x.mtype = y.mtype :=
  h.elim (fun h => h ▸ rfl) (fun h => (hD x y h).1)

theorem takes_rel (hD : Differs D) {queues queues' : Int32 → List QMsg} {c c' : Container}
    (ht : Twin c c')
    (hq : Rows Eq D (n c.svc.mqKey) (queues c.svc.mqKey) (queues' c.svc.mqKey)) :
    Option.Rel (fun x y => x = y ∨ D x y) (c.takes queues) (c'.takes queues') := by
  have hp : ∀ (t : Int) (x y : QMsg), x = y ∨ D x y →
      (x.mtype == t) = (y.mtype == t) := fun t x y h => by rw [row_mtype hD h]
  unfold Container.takes firstOf
  rw [← ht.svc, ← ht.pid]
  exact or_rel (hq.find? (hp _)) (hq.find? (hp _))

/-- The messages the two processes take differ in a way that counts. -/
def TakesPair (D : QMsg → QMsg → Prop) (s s' : Backend) : BackendLabel → Prop
  | .fire i _ => ∃ c c' x y, s.procs[i]? = some c ∧ s'.procs[i]? = some c' ∧
      c.takes s.queues = some x ∧ c'.takes s'.queues = some y ∧ D x y
  | _ => False

theorem rows_update {queues queues' : Int32 → List QMsg} (key : Int32) {rest rest' : List QMsg} {m : Nat}
    (hq : ∀ k, Rows Eq D (n k) (queues k) (queues' k)) (hrest : Rows Eq D m rest rest') :
    ∀ k, Rows Eq D (Function.update n key m k) (Function.update queues key rest k)
      (Function.update queues' key rest' k) := by
  intro k
  by_cases hk : k = key
  · subst hk
    simp only [Function.update_self]
    exact hrest
  · simp only [Function.update_of_ne hk]
    exact hq k

/-- OnEventFire of two twin processes that do not take the pair. -/
theorem fire_twin (hD : Differs D) {s s' : Backend} (hs : Sound s) (hs' : Sound s')
    (hq : ∀ key, Rows Eq D (n key) (s.queues key) (s'.queues key)) {c c' c1 : Container}
    (ht : Twin c c') (hc : c ∈ s.procs) (hc' : c' ∈ s'.procs) {q1 : Int32 → List QMsg} {sent : Bool}
    (hpair : ∀ x y, c.takes s.queues = some x → c'.takes s'.queues = some y → ¬D x y)
    (h : c.onEventFire s.queues sent = .ok (c1, q1)) :
    ∃ c1' q1', c'.onEventFire s'.queues sent = .ok (c1', q1') ∧ Twin c1 c1' ∧
      ∀ key, Rows Eq D (n key) (q1 key) (q1' key) := by
  have hv := hs.valid c hc
  have hv' := hs'.valid c' hc'
  have hrel := takes_rel hD ht (hq c.svc.mqKey)
  obtain ⟨hnone, hidle⟩ | ⟨x, rest, htakes, htaken, _, hfire⟩ := onEventFire_eq (hs.text c.svc) sent
  · have hnone' := rel_none hrel hnone
    cases Except.ok.inj (h.symm.trans hidle)
    obtain ⟨_, hidle'⟩ | ⟨y, _, htakes', _⟩ := onEventFire_eq (hs'.text c'.svc) sent
    · exact ⟨c', s'.queues, hidle', ht, hq⟩
    · cases hnone'.symm.trans htakes'
  · obtain ⟨y, htakes', hxy⟩ := rel_some hrel htakes
    obtain ⟨hnone', _⟩ | ⟨y', rest', hsome, htaken', _, hfire'⟩ := onEventFire_eq (hs'.text c'.svc) sent
    · cases hnone'.symm.trans htakes'
    · obtain rfl := Option.some.inj (hsome.symm.trans htakes')
      rw [← ht.svc] at htaken'
      obtain ⟨hsame, hrest⟩ | ⟨hd, _⟩ :=
        (hq c.svc.mqKey).taken (fun _ _ => row_mtype hD) htaken htaken' (row_mtype hD hxy)
      · obtain rfl := hsame
        have hqueues := rows_update c.svc.mqKey hq hrest
        rw [Function.update_eq_self] at hqueues
        rw [hfire] at h
        split at h
        next => cases h
        next d w hp =>
          cases Except.ok.inj h
          rw [QMsg.cmd_eq] at hp
          obtain ⟨frames', after', hp', hframes, hafter⟩ :=
            processed_twin hqueues ht (processMsg_processed hv hp)
          obtain ⟨d', w', hok, hmaps, rfl, rfl⟩ := hp'.processMsg hv'
          rw [ht.svc] at hok
          rw [QMsg.cmd_eq, hok] at hfire'
          exact ⟨_, _, hfire', ⟨ht.svc, ht.pid, ht.slots, hmaps.symm, hframes⟩, hafter⟩
      · exact absurd hd (hpair x y' htakes htakes')

/-- Two states of two runs side by side. -/
structure Mirrored (D : QMsg → QMsg → Prop) (n : Int32 → Nat) (s s' : Backend) : Prop where
  alike : Alike D n s s'
  sound : Sound s
  sound' : Sound s'

theorem Mirrored.symm {s s' : Backend} (h : Mirrored D n s s') : Mirrored (fun x y => D y x) n s' s :=
  ⟨h.alike.symm, h.sound', h.sound⟩

theorem fireAt_get {procs : List Container} {queues : Int32 → List QMsg} {i : Nat} {sent : Bool}
    {c : Container} (h : procs[i]? = some c) : fireAt procs queues i sent =
      match c.onEventFire queues sent with
      | .error e => .error e
      | .ok (c, queues) => .ok (procs.set i c, queues) := by
  unfold fireAt
  cases hon : c.onEventFire queues sent with
  | error e => simp only [h, hon]
  | ok r => simp only [h, hon]

theorem turn_cases {s s' : Backend} {i : Nat} (h : backend.step s (.fire i true) s') :
    (s.procs[i]? = none ∧ s' = s) ∨ ∃ c c', s.procs[i]? = some c ∧
      c.onEventFire s.queues true = .ok (c', s'.queues) ∧ s'.procs = s.procs.set i c' := by
  obtain ⟨_, h⟩ := h
  dsimp only [backendStep] at h
  cases hget : s.procs[i]? with
  | none =>
    rw [fireAt, hget] at h
    exact Or.inl ⟨rfl, (Except.ok.inj h).symm⟩
  | some c =>
    rw [fireAt_get hget] at h
    cases hon : c.onEventFire s.queues true with
    | error e => rw [hon] at h; cases h
    | ok r =>
      rw [hon] at h
      cases Except.ok.inj h
      exact Or.inr ⟨c, r.1, rfl, hon, rfl⟩

theorem alike_enter {s s' : Backend} (ha : Alike D n s s') (key : Int32) (oCmd : CCmd) :
    Alike D n (s.enter key oCmd) (s'.enter key oCmd) := by
  have hqueues := rows_update key ha.queues ((ha.queues key).concat (Eq.refl (cmdMsg REQUEST.toInt oCmd)))
  rw [Function.update_eq_self] at hqueues
  exact ⟨ha.procs, hqueues⟩

theorem alike_drain {s s' : Backend} (ha : Alike D n s s') (hback : n NET_IO_BACK_MSQ_KEY = 0)
    (queue : List QMsg) : Alike D n (s.drain queue) (s'.drain queue) := by
  have hqueues := rows_update NET_IO_BACK_MSQ_KEY ha.queues (Rows.refl Eq.refl queue)
  rw [← hback, Function.update_eq_self] at hqueues
  exact ⟨ha.procs, hqueues⟩

theorem alike_fire (hD : Differs D) {s s' u : Backend} (hm : Mirrored D n s s') {i : Nat} {sent : Bool}
    (hpair : ¬TakesPair D s s' (.fire i sent)) (h : backendStep s (.fire i sent) = .ok u) :
    ∃ u', backendStep s' (.fire i sent) = .ok u' ∧ Alike D n u u' := by
  have ha := hm.alike
  dsimp only [backendStep] at h
  cases hget : s.procs[i]? with
  | none =>
    have hget' := rel_none (ha.procs i) hget
    rw [fireAt, hget] at h
    cases Except.ok.inj h
    refine ⟨s', ?_, ha⟩
    rw [backendStep, fireAt, hget']
  | some c =>
    obtain ⟨c', hget', ht⟩ := rel_some (ha.procs i) hget
    rw [fireAt_get hget] at h
    cases hon : c.onEventFire s.queues sent with
    | error e => rw [hon] at h; cases h
    | ok r =>
      obtain ⟨c1, q1⟩ := r
      rw [hon] at h
      cases Except.ok.inj h
      have hfree : ∀ x y, c.takes s.queues = some x → c'.takes s'.queues = some y → ¬D x y :=
        fun x y hx hy hd => hpair ⟨c, c', x, y, hget, hget', hx, hy, hd⟩
      obtain ⟨c1', q1', hon', ht1, hq1⟩ := fire_twin hD hm.sound hm.sound' ha.queues ht
        (List.mem_of_getElem? hget) (List.mem_of_getElem? hget') hfree hon
      refine ⟨{ s' with procs := s'.procs.set i c1', queues := q1' }, ?_, rel_set ha.procs ht1 i, hq1⟩
      rw [backendStep, fireAt_get hget', hon']

/-- What one run can do the other can do too, as long as the pair is not taken. -/
theorem mirrored_step (hD : Differs D) (hback : n NET_IO_BACK_MSQ_KEY = 0) {s s' u : Backend}
    {l : BackendLabel} (hm : Mirrored D n s s') (hpair : ¬TakesPair D s s' l) (h : backend.step s l u) :
    ∃ u', backend.step s' l u' ∧ Mirrored D n u u' := by
  suffices ∃ u', backend.step s' l u' ∧ Alike D n u u' by
    obtain ⟨u', hu', hau⟩ := this
    exact ⟨u', hu', hau, sound_step hm.sound h, sound_step hm.sound' hu'⟩
  obtain ⟨hen, h⟩ := h
  cases l with
  | enter oCmd addr =>
    dsimp only [backendStep] at h
    split at h
    next => cases h
    next key hkey =>
      cases Except.ok.inj h
      exact ⟨s'.enter key oCmd, ⟨hen, by rw [backendStep, hkey]⟩, alike_enter hm.alike key oCmd⟩
  | fire i sent =>
    obtain ⟨u', hu', hau⟩ := alike_fire hD hm hpair h
    exact ⟨u', ⟨trivial, hu'⟩, hau⟩
  | drain queue =>
    cases Except.ok.inj h
    exact ⟨s'.drain queue, ⟨trivial, rfl⟩, alike_drain hm.alike hback queue⟩

end

end NetioMiddleware
