import NetioMiddleware.Netio

namespace NetioMiddleware

/-- What DoConn learns from accept and does with a connection, in order. -/
inductive AcceptCall
  | accept (iConnfd : Int32)
  | acceptAgain
  | acceptError
  | close (iConnfd : Int32)
  | addToWatchList (iConnfd : Int32)
  deriving DecidableEq

/-- A return of DoConn: its value, the calls made by then and the reactor left. -/
structure DoConnReturn where
  iRet : Int32
  calls : List AcceptCall
  reactor : Reactor

def DoConnReturn.after (r : DoConnReturn) (calls : List AcceptCall) : DoConnReturn :=
  { r with calls := calls ++ r.calls }

/-- DoConn with its return value and its calls; accept says EAGAIN after the
last outcome. -/
def Reactor.doConnCalls (s : Reactor) (iConn : Int32) :
    List AcceptOutcome → Except Halt DoConnReturn
  | [] => .ok ⟨0, [.acceptAgain], s⟩
  | .error :: _ => .ok ⟨-1, [.acceptError], s⟩
  | .conn iConnfd stCliAddr getfl setfl :: rest =>
    if iConnfd.toInt < 0 ∨ s.kernel.owner iConnfd ≠ none then .error .impossible
    else
      let s := { s with kernel := s.kernel.accept iConnfd }
      if getfl = false ∨ setfl = false then
        .ok ⟨FCNTL_SOCKET_FAILED, [.accept iConnfd, .close iConnfd],
          { s with kernel := s.kernel.close iConnfd }⟩
      else if inArray MAX_EPOLL_EVENT_NUM iConnfd = false then .error .sockIndex
      else
        match (s.setItem iConnfd ⟨iConnfd, .TCP_SERVER_READ, stCliAddr⟩).addToWatchList
            iConnfd .TCP_SERVER_READ .own true with
        | .error e => .error e
        | .ok (_, s) =>
          match s.doConnCalls iConn rest with
          | .error e => .error e
          | .ok r => .ok (r.after [.accept iConnfd, .addToWatchList iConnfd])

/-- Every connection accept returns is afterwards watched or closed. -/
def NoneLost (calls : List AcceptCall) : Prop :=
  ∀ pre fd post, calls = pre ++ .accept fd :: post → .addToWatchList fd ∈ post ∨ .close fd ∈ post

/-- The answers accept can give one after the other: a new connection never has
a descriptor that is open, and holds its own unless fcntl failed on it. -/
def AcceptOrder (opened : Int32 → Prop) : List AcceptOutcome → Prop
  | [] => True
  | .error :: rest => AcceptOrder opened rest
  | .conn fd _ getfl setfl :: rest =>
    0 ≤ fd.toInt ∧ ¬opened fd ∧
      AcceptOrder (fun x => opened x ∨ (x = fd ∧ getfl = true ∧ setfl = true)) rest

/-- A connection both fcntl calls succeed on, whose descriptor has an entry in
m_arrTcpSock. -/
def AcceptOutcome.Kept : AcceptOutcome → Prop
  | .conn fd _ getfl setfl => getfl = true ∧ setfl = true ∧ inArray MAX_EPOLL_EVENT_NUM fd = true
  | .error => False

/-- DoConn leaves the same reactor with its calls written down as without. -/
theorem doConnCalls_reactor (s : Reactor) (iConn : Int32) (l : List AcceptOutcome) :
    (s.doConnCalls iConn l).map (fun r => r.reactor) = s.doConn iConn l := by
  induction l generalizing s with
  | nil => rfl
  | cons o l ih =>
    cases o with
    | error => rfl
    | conn fd addr getfl setfl =>
      unfold Reactor.doConnCalls Reactor.doConn
      split
      next => rfl
      next =>
        dsimp only
        split
        next => rfl
        next =>
          split
          next => rfl
          next =>
            generalize Reactor.addToWatchList _ _ _ _ _ = watched
            rcases watched with e | ⟨_, s1⟩
            · rfl
            · dsimp only
              rw [← ih s1]
              cases s1.doConnCalls iConn l <;> rfl

theorem noneLost_of_no_accept {calls : List AcceptCall} (h : ∀ fd, .accept fd ∉ calls) :
    NoneLost calls := by
  rintro pre fd post rfl
  exact absurd (by simp) (h fd)

/-- A connection that is dealt with at once is none of those lost. -/
theorem NoneLost.cons_cons {calls : List AcceptCall} {fd : Int32} {c : AcceptCall}
    (hc : c = .addToWatchList fd ∨ c = .close fd) (h : NoneLost calls) :
    NoneLost (.accept fd :: c :: calls) := by
  intro pre x post heq
  rcases pre with _ | ⟨a, _ | ⟨b, pre⟩⟩
  · obtain ⟨hx, rfl⟩ := List.cons_eq_cons.mp heq
    cases hx
    rcases hc with rfl | rfl
    · exact Or.inl (by simp)
    · exact Or.inr (by simp)
  · obtain ⟨_, hrest⟩ := List.cons_eq_cons.mp heq
    obtain ⟨rfl, _⟩ := List.cons_eq_cons.mp hrest
    simp at hc
  · obtain ⟨_, hrest⟩ := List.cons_eq_cons.mp heq
    exact h pre x post (List.cons_eq_cons.mp hrest).2

/-- What the loop does with the answer at hand. -/
theorem doConnCalls_cons {s : Reactor} {iConn : Int32} {o : AcceptOutcome} {l : List AcceptOutcome}
    {r : DoConnReturn} (h : s.doConnCalls iConn (o :: l) = .ok r) :
    r.calls = [.acceptError] ∨ (∃ fd, r.calls = [.accept fd, .close fd]) ∨
      ∃ fd, ∃ (s1 : Reactor) (r1 : DoConnReturn), o.Kept ∧ s1.doConnCalls iConn l = .ok r1 ∧
        r.calls = .accept fd :: .addToWatchList fd :: r1.calls := by
  cases o with
  | error =>
    cases Except.ok.inj h
    exact Or.inl rfl
  | conn fd addr getfl setfl =>
    unfold Reactor.doConnCalls at h
    split at h
    next => contradiction
    next =>
      dsimp only at h
      split at h
      next =>
        cases Except.ok.inj h
        exact Or.inr (Or.inl ⟨fd, rfl⟩)
      next hflags =>
        split at h
        next => contradiction
        next hin =>
          split at h
          next => contradiction
          next s1 _ =>
            split at h
            next => contradiction
            next r1 hr1 =>
              cases Except.ok.inj h
              obtain ⟨hget, hset⟩ : getfl = true ∧ setfl = true := by simpa using hflags
              exact Or.inr (Or.inr ⟨fd, s1, r1, ⟨hget, hset, by simpa using hin⟩, hr1, rfl⟩)

/-- However DoConn returns, it leaves no connection it accepted behind. -/
theorem doConnCalls_noneLost {s : Reactor} {iConn : Int32} {l : List AcceptOutcome} {r : DoConnReturn}
    (h : s.doConnCalls iConn l = .ok r) : NoneLost r.calls := by
  induction l generalizing s r with
  | nil =>
    cases Except.ok.inj h
    exact noneLost_of_no_accept (by simp)
  | cons o l ih =>
    rcases doConnCalls_cons h with hcalls | ⟨fd, hcalls⟩ | ⟨fd, s1, r1, _, hr1, hcalls⟩
    · exact hcalls ▸ noneLost_of_no_accept (by simp)
    · exact hcalls ▸ (noneLost_of_no_accept (by simp)).cons_cons (Or.inr rfl)
    · exact hcalls ▸ (ih hr1).cons_cons (Or.inl rfl)

/-- A return after EAGAIN has kept every connection of the burst. -/
theorem kept_of_again {s : Reactor} {iConn : Int32} {l : List AcceptOutcome} {r : DoConnReturn}
    (h : s.doConnCalls iConn l = .ok r) (hagain : .acceptAgain ∈ r.calls) : ∀ o ∈ l, o.Kept := by
  induction l generalizing s r with
  | nil => simp
  | cons o l ih =>
    rcases doConnCalls_cons h with hcalls | ⟨fd, hcalls⟩ | ⟨fd, s1, r1, ho, hr1, hcalls⟩
    · simp [hcalls] at hagain
    · simp [hcalls] at hagain
    · exact List.forall_mem_cons.mpr ⟨ho, ih hr1 (by simpa [hcalls] using hagain)⟩

/-- A burst of connections that can all be kept is taken to its end. -/
theorem again_of_kept {s : Reactor} {iConn : Int32} {l : List AcceptOutcome} {opened : Int32 → Prop}
    (hl : AcceptOrder opened l) (hopen : ∀ x, s.kernel.owner x ≠ none → opened x)
    (hkept : ∀ o ∈ l, o.Kept) : ∃ r, s.doConnCalls iConn l = .ok r ∧ .acceptAgain ∈ r.calls := by
  induction l generalizing s opened with
  | nil => exact ⟨_, rfl, by simp⟩
  | cons o l ih =>
    obtain ⟨ho, hrest⟩ := List.forall_mem_cons.mp hkept
    cases o with
    | error => exact ho.elim
    | conn fd addr getfl setfl =>
      obtain ⟨rfl, rfl, hin⟩ := ho
      obtain ⟨hpos, hfree, hl⟩ := hl
      have hgo : ¬(fd.toInt < 0 ∨ s.kernel.owner fd ≠ none) := by
        rintro (hneg | ho)
        · omega
        · exact hfree (hopen fd ho)
      unfold Reactor.doConnCalls
      rw [if_neg hgo]
      dsimp only
      rw [if_neg (by simp), if_neg (by simp [hin])]
      split
      next e he => exact absurd he (addToWatchList_ne_error hin)
      next s1 hs1 =>
        have howner : s1.kernel.owner = (s.kernel.accept fd).owner := by
          rw [(addToWatchList_frame hs1).1]
          rfl
        have hopen1 : ∀ x, s1.kernel.owner x ≠ none →
            opened x ∨ (x = fd ∧ true = true ∧ true = true) := by
          intro x hx
          by_cases hxfd : x = fd
          · exact Or.inr ⟨hxfd, rfl, rfl⟩
          · have hsame : s1.kernel.owner x = s.kernel.owner x := by
              rw [howner]
              exact Function.update_of_ne hxfd _ _
            exact Or.inl (hopen x (hsame ▸ hx))
        obtain ⟨r1, hr1, hagain⟩ := ih hl hopen1 hrest
        rw [hr1]
        exact ⟨_, rfl, by simp [DoConnReturn.after, hagain]⟩

/-- DoConn returns after EAGAIN, with no connection lost, exactly when every
answer before it is a connection that can be kept. -/
theorem doConn_drains_iff {s : Reactor} {iConn : Int32} {l : List AcceptOutcome}
    (hl : AcceptOrder (fun fd => s.kernel.owner fd ≠ none) l) :
    (∃ r, s.doConnCalls iConn l = .ok r ∧ .acceptAgain ∈ r.calls ∧ NoneLost r.calls) ↔
      ∀ o ∈ l, o.Kept := by
  constructor
  · rintro ⟨r, hr, hagain, _⟩
    exact kept_of_again hr hagain
  · intro hkept
    obtain ⟨r, hr, hagain⟩ := again_of_kept hl (fun _ hx => hx) hkept
    exact ⟨r, hr, hagain, doConnCalls_noneLost hr⟩

theorem doConn_drains_iff_sample :
    ∃ r, sampleInit.doConnCalls 3 [.conn 5 ⟨2, 9, ⟨10, 0, 0, 1⟩⟩ true true,
        .conn 6 ⟨2, 9, ⟨10, 0, 0, 2⟩⟩ true true] = .ok r ∧
      .acceptAgain ∈ r.calls ∧ NoneLost r.calls := by
  have horder : AcceptOrder (fun fd => sampleInit.kernel.owner fd ≠ none)
      [.conn 5 ⟨2, 9, ⟨10, 0, 0, 1⟩⟩ true true, .conn 6 ⟨2, 9, ⟨10, 0, 0, 2⟩⟩ true true] :=
    ⟨by decide, by decide, by decide, by decide, trivial⟩
  refine (doConn_drains_iff horder).mpr ?_
  intro o ho
  simp only [List.mem_cons, List.not_mem_nil, or_false] at ho
  rcases ho with rfl | rfl
  · exact ⟨rfl, rfl, by decide⟩
  · exact ⟨rfl, rfl, by decide⟩

/-- A connection aborted before accept could return it, or one that fcntl fails
on, ends DoConn with the next connection still waiting. -/
theorem doConn_leaves_backlog :
    (AcceptOrder (fun fd => sampleInit.kernel.owner fd ≠ none)
        [.error, .conn 5 ⟨2, 9, ⟨10, 0, 0, 1⟩⟩ true true] ∧
      ∃ r, sampleInit.doConnCalls 3 [.error, .conn 5 ⟨2, 9, ⟨10, 0, 0, 1⟩⟩ true true] = .ok r ∧
        .acceptAgain ∉ r.calls) ∧
    (AcceptOrder (fun fd => sampleInit.kernel.owner fd ≠ none)
        [.conn 5 ⟨2, 9, ⟨10, 0, 0, 1⟩⟩ true false, .conn 5 ⟨2, 9, ⟨10, 0, 0, 2⟩⟩ true true] ∧
      ∃ r, sampleInit.doConnCalls 3 [.conn 5 ⟨2, 9, ⟨10, 0, 0, 1⟩⟩ true false,
          .conn 5 ⟨2, 9, ⟨10, 0, 0, 2⟩⟩ true true] = .ok r ∧
        .acceptAgain ∉ r.calls) :=
  ⟨⟨⟨by decide, by decide, trivial⟩, _, rfl, by decide⟩,
    ⟨⟨by decide, by decide, by decide, by decide, trivial⟩, _, rfl, by decide⟩⟩

end NetioMiddleware
