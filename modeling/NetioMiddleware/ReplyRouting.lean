import NetioMiddleware.TwinRuns

namespace NetioMiddleware

/-- A handler number of which msgsnd refuses the message type. -/
def Unsendable (iSvcSerialNo : Int32) : Prop := iSvcSerialNo.toInt ≤ -100

theorem appType_pos_iff (n : Int32) : 0 < appType (n.toInt.tdiv 100) ↔ ¬Unsendable n := by
  have happ : APP.toInt = 3 := by decide
  rw [appType, happ, Unsendable]
  rcases Int.le_total 0 n.toInt with hpos | hneg
  · rw [Int.tdiv_eq_ediv_of_nonneg hpos]
    omega
  · have hflip : n.toInt.tdiv 100 = -((-n.toInt) / 100) := by
      rw [← Int.tdiv_eq_ediv_of_nonneg (by omega), Int.neg_tdiv, Int.neg_neg]
    rw [hflip]
    omega

/-- Two replies are one message in one queue, or msgsnd refuses both. -/
def SentAlike (k k' : Int32) (m m' : QMsg) : Prop :=
  (m.mtype ≤ 0 ∧ m'.mtype ≤ 0) ∨ (0 < m.mtype ∧ k = k' ∧ m = m')

section

variable {pid : Nat} {x y : CCmd} {k k' : Int32} {m m' : QMsg} (hto : replyTo pid x = some (k, m))
  (hto' : replyTo pid y = some (k', m'))

include hto

theorem replyTo_mtype_pos_iff : 0 < m.mtype ↔ ¬Unsendable x.iSvcSerialNo := by
  unfold replyTo at hto
  split at hto
  next =>
    obtain ⟨key, _, he⟩ := Option.map_eq_some_iff.mp hto
    rw [← (Prod.mk.inj he).2]
    exact appType_pos_iff _
  next hserial =>
    rw [← (Prod.mk.inj (Option.some.inj hto)).2, not_not.mp hserial]
    exact iff_of_true (show 0 < RESPONSE.toInt by decide) (by unfold Unsendable; decide)

theorem replyTo_header (hip : PlainIp x.sClientIp) :
    m.cmd.header = { x.header with iType := RESPONSE } := by
  unfold replyTo at hto
  split at hto
  next =>
    obtain ⟨key, _, he⟩ := Option.map_eq_some_iff.mp hto
    rw [← (Prod.mk.inj he).2]
    exact cmdMsg_header _ (c := { x with iType := RESPONSE }) hip
  next =>
    rw [← (Prod.mk.inj (Option.some.inj hto)).2]
    exact cmdMsg_header _ (c := backCmd pid x) hip

include hto'

/-- Two replies to one sender, with a text that depends on ret, are alike exactly
if they agree in the three fields that a client may set. -/
theorem replies_alike_iff (hip : PlainIp x.sClientIp)
    (hsender : y.sender = { x.sender with iIndex := y.iIndex }) (hdata : x.iRet = y.iRet → x.sData = y.sData) :
    SentAlike k k' m m' ↔ (Unsendable x.iSvcSerialNo ∧ Unsendable y.iSvcSerialNo) ∨
      (x.iSvcSerialNo = y.iSvcSerialNo ∧ x.iIndex = y.iIndex ∧ x.iRet = y.iRet) := by
  have hpos := replyTo_mtype_pos_iff hto
  have hpos' := replyTo_mtype_pos_iff hto'
  obtain ⟨_, hfd, hfamily, hcliIp, hport, hcmd⟩ := Sender.mk.inj hsender
  have hip' : PlainIp y.sClientIp := hcliIp ▸ hip
  rw [SentAlike, ← Int.not_lt, ← Int.not_lt, hpos, hpos', not_not, not_not]
  constructor
  · rintro (hboth | ⟨_, rfl, rfl⟩)
    · exact Or.inl hboth
    · have hheader := (replyTo_header hto hip).symm.trans (replyTo_header hto' hip')
      obtain ⟨hret, _, hindex, hserial, _⟩ := Header.mk.inj hheader
      exact Or.inr ⟨hserial, hindex, hret⟩
  · rintro (hboth | ⟨hserial, hindex, hret⟩)
    · exact Or.inl hboth
    · have hsame : replyTo pid x = replyTo pid y := by
        simp only [replyTo, hserial, hindex, hret, hdata hret, hfd, hfamily, hcliIp, hport, hcmd,
          CCmd.sender]
      rw [hsame] at hto
      obtain ⟨rfl, rfl⟩ := Prod.mk.inj (Option.some.inj (hto.symm.trans hto'))
      by_cases hun : Unsendable x.iSvcSerialNo
      · exact Or.inl ⟨hun, hserial ▸ hun⟩
      · exact Or.inr ⟨hun, rfl, rfl⟩

end

theorem offer_length {queues : Int32 → List QMsg} {k : Int32} {m : QMsg} (key : Int32) :
    (offer queues k m true key).length =
      (queues key).length + if 0 < m.mtype ∧ key = k then 1 else 0 := by
  unfold offer
  by_cases hm : 0 < m.mtype
  · by_cases hk : key = k
    · subst hk
      simp [hm]
    · simp [hm, hk]
  · simp [hm]

/-- Equal queues stay equal exactly if the replies put into them are alike. -/
theorem same_offer_iff (queues : Int32 → List QMsg) (k k' : Int32) (m m' : QMsg) (sent : Bool) :
    offer queues k m sent = offer queues k' m' sent ↔ (sent = true → SentAlike k k' m m') := by
  constructor
  · rintro h rfl
    have hlen : ∀ key, (0 < m.mtype ∧ key = k) ↔ (0 < m'.mtype ∧ key = k') := by
      intro key
      have hoffer := congrArg List.length (congrFun h key)
      rw [offer_length, offer_length] at hoffer
      by_cases h1 : 0 < m.mtype ∧ key = k
      · by_cases h2 : 0 < m'.mtype ∧ key = k'
        · exact iff_of_true h1 h2
        · rw [if_pos h1, if_neg h2] at hoffer
          omega
      · by_cases h2 : 0 < m'.mtype ∧ key = k'
        · rw [if_neg h1, if_pos h2] at hoffer
          omega
        · exact iff_of_false h1 h2
    by_cases hm : 0 < m.mtype
    · obtain ⟨hm', rfl⟩ := (hlen k).mp ⟨hm, rfl⟩
      have hlast := congrFun h k
      rw [offer, offer, if_pos ⟨rfl, hm⟩, if_pos ⟨rfl, hm'⟩, Function.update_self,
        Function.update_self] at hlast
      exact Or.inr ⟨hm, rfl, (List.cons.inj (List.append_cancel_left hlast)).1⟩
    · have hm' : ¬0 < m'.mtype := fun hm' => hm ((hlen k').mpr ⟨hm', rfl⟩).1
      exact Or.inl ⟨Int.not_lt.mp hm, Int.not_lt.mp hm'⟩
  · intro h
    cases sent with
    | false => rfl
    | true =>
      rcases h rfl with ⟨hm, hm'⟩ | ⟨_, rfl, rfl⟩
      · rw [offer, offer, if_neg (by omega), if_neg (by omega)]
      · rfl

end NetioMiddleware
