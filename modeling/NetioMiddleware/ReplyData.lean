import NetioMiddleware.CmdLength
import NetioMiddleware.RequestData

namespace NetioMiddleware

/-- Trim leaves a text alone that has no blank at either end. -/
theorem trim_eq_self_iff {s : Bytes} :
    trim s = s ↔ ∀ h : s ≠ [], isTrimmed (s.head h) = false ∧ isTrimmed (s.getLast h) = false := by
  constructor
  · intro hs hne
    have hdrop := (List.dropWhile_sublist isTrimmed (l := s)).length_le
    have hrdrop := (List.rdropWhile_prefix isTrimmed (s.dropWhile isTrimmed)).length_le
    have hlen := congrArg List.length hs
    rw [trim_eq] at hlen
    have hfront : s.dropWhile isTrimmed = s := (List.dropWhile_sublist isTrimmed).eq_of_length (by omega)
    rw [trim_eq, hfront] at hs
    have hpos : 0 < s.length := List.length_pos_iff.mpr hne
    refine ⟨?_, ?_⟩
    · simpa [List.head_eq_getElem] using List.dropWhile_eq_self_iff.mp hfront hpos
    · simpa using List.rdropWhile_eq_self_iff.mp hs hne
  · intro h
    have hfront : s.dropWhile isTrimmed = s := by
      apply List.dropWhile_eq_self_iff.mpr
      intro hpos
      have hhead := (h (List.length_pos_iff.mp hpos)).1
      simpa [List.head_eq_getElem] using hhead
    rw [trim_eq, hfront]
    apply List.rdropWhile_eq_self_iff.mpr
    intro hne
    simpa using (h hne).2

theorem joinPairs_concat {l : List (Bytes × Bytes)} (h : l ≠ []) (e : Bytes × Bytes) :
    joinPairs (l ++ [e]) = joinPairs l ++ 38 :: joinPairs [e] := by
  induction l with
  | nil => contradiction
  | cons d l ih =>
    cases l with
    | nil => simp [joinPairs, List.intercalate_cons_cons]
    | cons d' l =>
      have hl := ih (List.cons_ne_nil d' l)
      rw [List.cons_append, List.cons_append, joinPairs_cons_cons, joinPairs_cons_cons,
        ← List.cons_append, hl]
      simp

/-- Text behind the last value belongs to it. -/
theorem joinPairs_append (l : List (Bytes × Bytes)) (k v tail : Bytes) :
    joinPairs (l ++ [(k, v)]) ++ tail = joinPairs (l ++ [(k, v ++ tail)]) := by
  cases l with
  | nil => simp [joinPairs]
  | cons d l =>
    rw [joinPairs_concat (List.cons_ne_nil d l), joinPairs_concat (List.cons_ne_nil d l)]
    simp [joinPairs]

theorem pairsOf_concat {l : List (Bytes × Bytes)} {k v : Bytes}
    (h : ∀ e ∈ l, CleanText e.1 ∧ CleanText e.2) (hk : CleanText k) (hamp : 38 ∉ v) (heq : 61 ∉ v) :
    pairsOf (joinPairs (l ++ [(k, v)])) = l ++ [(k, trim v)] := by
  have hfield : pairsOf (joinPairs [(k, v)]) = [(k, trim v)] := by
    have hfree : 38 ∉ k ++ 61 :: v := by simp [hk.no_amp, hamp]
    have hjoin : joinPairs [(k, v)] = k ++ 61 :: v := by simp [joinPairs]
    rw [hjoin, pairsOf_eq, List.splitOn_eq_singleton hfree]
    simp [pairOf_field hk.no_eq heq, hk.trimmed]
  cases l with
  | nil => exact hfield
  | cons d l =>
    rw [joinPairs_concat (List.cons_ne_nil d l), pairsOf_append, pairsOf_joinPairs h, hfield]

/-- What InitCCmd keeps of parameters with distinct names. -/
theorem mem_dataMap_insertAll {l : List (Bytes × Bytes)} (hkeys : (l.map Prod.fst).Nodup)
    {e : Bytes × Bytes} :
    e ∈ (dataMap (SortedMap.empty.insertAll l)).entries ↔ e ∈ l ∧ e.1 ∉ reservedKeys := by
  rw [← SortedMap.find?_eq_some_iff, dataMap, SortedMap.find?_eraseAll]
  split
  next hres => simp [hres]
  next hres =>
    rw [SortedMap.find?_insertAll, SortedMap.find?_empty, Option.none_or, firstValue_eq_some_iff hkeys]
    exact ⟨fun h => ⟨h, hres⟩, And.left⟩

/-- A text of parameters has this one. -/
def hasParam (text : Bytes) (e : Bytes × Bytes) : Prop := e.1 ++ 61 :: e.2 ∈ text.splitOn 38

theorem field_injective {k k' v v' : Bytes} (hk : 61 ∉ k) (hk' : 61 ∉ k')
    (h : k ++ 61 :: v = k' ++ 61 :: v') : k = k' ∧ v = v' := by
  induction k generalizing k' with
  | nil =>
    cases k' with
    | nil => simpa using h
    | cons c k' =>
      obtain ⟨hc, _⟩ := List.cons.inj h
      exact absurd (List.mem_cons.mpr (Or.inl hc)) hk'
  | cons c k ih =>
    cases k' with
    | nil =>
      obtain ⟨hc, _⟩ := List.cons.inj h
      exact absurd (List.mem_cons.mpr (Or.inl hc.symm)) hk
    | cons c' k' =>
      obtain ⟨hc, hrest⟩ := List.cons.inj h
      obtain ⟨hkk, hv⟩ := ih (fun hm => hk (List.mem_cons_of_mem c hm))
        (fun hm => hk' (List.mem_cons_of_mem c' hm)) hrest
      exact ⟨by rw [hc, hkk], hv⟩

theorem hasParam_joinPairs {l : List (Bytes × Bytes)} (h : ∀ e ∈ l, CleanText e.1 ∧ CleanText e.2)
    {e : Bytes × Bytes} (he : 61 ∉ e.1) : hasParam (joinPairs l) e ↔ e ∈ l := by
  unfold hasParam joinPairs
  by_cases hnil : l = []
  · subst hnil
    simp
  · have hfree : ∀ p ∈ l.map (fun e => e.1 ++ 61 :: e.2), 38 ∉ p := by
      intro p hp
      obtain ⟨d, hd, rfl⟩ := List.mem_map.mp hp
      obtain ⟨hk, hv⟩ := h d hd
      simp [hk.no_amp, hv.no_amp]
    rw [List.splitOn_intercalate 38 hfree (by simpa using hnil)]
    constructor
    · intro hm
      obtain ⟨d, hd, heq⟩ := List.mem_map.mp hm
      obtain ⟨hk, hv⟩ := field_injective (h d hd).1.no_eq he heq
      rwa [← Prod.ext hk hv]
    · exact fun hm => List.mem_map_of_mem hm

/-- What ProcessMsg writes behind the data of a reply to netio. -/
def pidText (pid : Nat) : Bytes := bytes " by pid:" ++ printNat pid

theorem pidText_mem {pid : Nat} {c : UInt8} (h : c ∈ pidText pid) :
    c ∈ bytes " by pid:" ∨ isDigit c = true := by
  rcases List.mem_append.mp h with h | h
  · exact Or.inl h
  · exact Or.inr (printNat_digits c h)

theorem pidText_free (pid : Nat) {c : UInt8} (hc : c ∉ bytes " by pid:") (hdigit : isDigit c = false) :
    c ∉ pidText pid := by
  intro h
  rcases pidText_mem h with h | h
  · exact hc h
  · rw [hdigit] at h
    contradiction

theorem digit_not_trimmed {c : UInt8} (h : isDigit c = true) : isTrimmed c = false := by
  have blanks : (bytes " \x0c\n\r\t\x0b").all (fun x => !isDigit x) = true := by decide
  by_contra hs
  have hc := List.all_eq_true.mp blanks c (by simpa [isTrimmed] using hs)
  rw [h] at hc
  contradiction

/-- The blank in front of "by pid:" stays exactly behind a value. -/
theorem trim_pidText {v : Bytes} (hv : trim v = v) (pid : Nat) :
    trim (v ++ pidText pid) = v ++ pidText pid ↔ v ≠ [] := by
  have hdigits : printNat pid ≠ [] := printNat_ne_nil pid
  have hpid : pidText pid ≠ [] := by simp [pidText, hdigits]
  rw [trim_eq_self_iff]
  constructor
  · intro h hnil
    subst hnil
    have hhead := (h (by simpa using hpid)).1
    exact absurd hhead (by simp [pidText, bytes, isTrimmed])
  · intro hne hw
    refine ⟨?_, ?_⟩
    · rw [List.head_append_of_ne_nil hne]
      exact (trim_eq_self_iff.mp hv hne).1
    · have hlast : (v ++ pidText pid).getLast hw = (printNat pid).getLast hdigits := by
        simp only [pidText, ← List.append_assoc]
        exact List.getLast_append_of_ne_nil _ hdigits
      rw [hlast]
      exact digit_not_trimmed (printNat_digits _ (List.getLast_mem hdigits))

/-- A text the array has room for is encoded whole. -/
theorem encode_whole {c : CCmd} (hip : PlainIp c.sClientIp) (hnul : 0 ∉ c.sData)
    (hfits : c.toString.length < MAX_MSG_SIZE - 8) :
    encode c = formatHeader c c.sClientIp ++ c.sData := by
  rw [encode, cStr_eq_self hip.no_nul, cStr_eq_self hnul]
  apply List.take_of_length_le
  rw [CCmd.toString] at hfits
  omega

/-- The text netio keeps of a whole message: its parameters without the
reserved ones, in the order of their names. -/
theorem responseText_encode {c : CCmd} (hip : PlainIp c.sClientIp) (hnul : 0 ∉ c.sData)
    (hfits : c.toString.length < MAX_MSG_SIZE - 8) :
    responseText (initCCmd {} (encode c)) =
        joinPairs (dataMap (SortedMap.empty.insertAll (pairsOf c.sData))).entries ∧
      (initCCmd {} (encode c)).iFd = c.iFd := by
  rw [encode_whole hip hnul hfits, initCCmd_format {} c hip.clean hip.no_nul hnul]
  refine ⟨?_, rfl⟩
  have hlen := dataMap_length c.sData
  have hfree := initCCmd_fresh_no_nul hnul
  rw [initCCmd_sData hnul] at hfree
  unfold responseText
  dsimp only
  rw [cStr_eq_self hfree]
  apply List.take_of_length_le
  rw [CCmd.toString, List.length_append] at hfits
  omega

/-- What OnEventFire stores of the message it takes. -/
theorem onEventFire_stored {s s' : Reactor} {origin : Option Nat} {before after : List QMsg} {m : QMsg}
    (hq : s.kernel.queues NET_IO_BACK_MSQ_KEY = before ++ m :: after)
    (hbefore : ∀ x ∈ before, x.mtype ≠ RESPONSE.toInt) (hm : m.mtype = RESPONSE.toInt)
    (hne : m.mtext ≠ []) (h : s.onEventFire false origin = .ok s') :
    (s'.m_arrMsg (initCCmd {} m.mtext).iFd).text = responseText (initCCmd {} m.mtext) := by
  have htake := takenCmd_first hq hbefore hm hne
  obtain ⟨queues, _, ⟨hnone, _⟩ | ⟨oCmd, r, hcmd, htext, hadd⟩⟩ := response_fire h
  · rw [htake] at hnone
    cases hnone
  · obtain rfl : initCCmd {} m.mtext = oCmd := Option.some.inj (htake.symm.trans hcmd)
    obtain ⟨_, hmsg, _⟩ := addToWatchList_frame hadd
    rw [hmsg, ← htext]
    simp only [Reactor.received, Function.update_self]

/-- A reply of a service: parameters with distinct names, without blanks around
names and values, and without '&', '=' and NUL. -/
structure ReplyParams (l : List (Bytes × Bytes)) : Prop where
  clean : ∀ e ∈ l, CleanText e.1 ∧ CleanText e.2
  no_nul : ∀ e ∈ l, 0 ∉ e.1 ∧ 0 ∉ e.2
  distinct : (l.map Prod.fst).Nodup

/-- The command ProcessMsg prints for netio. -/
def backCmd (pid : Nat) (oCmd : CCmd) : CCmd :=
  { oCmd with sData := oCmd.sData ++ bytes " by pid:" ++ printNat pid, iType := RESPONSE }

theorem reply_back {oCmd : CCmd} (hserial : oCmd.iSvcSerialNo = 0) (pid : Nat) (w : World) :
    ∃ w', reply pid oCmd w true = .ok w' ∧
      w'.queues = Function.update w.queues NET_IO_BACK_MSQ_KEY
        (w.queues NET_IO_BACK_MSQ_KEY ++ [cmdMsg RESPONSE.toInt (backCmd pid oCmd)]) := by
  unfold reply
  rw [if_neg (not_not.mpr hserial)]
  refine ⟨_, rfl, ?_⟩
  have htype : 0 < RESPONSE.toInt := by decide
  rw [put_queues, offer, if_pos ⟨rfl, htype⟩]
  rfl

section

variable {l : List (Bytes × Bytes)} {k v : Bytes} (hl : ReplyParams (l ++ [(k, v)])) (pid : Nat)

include hl

theorem backData_no_nul : 0 ∉ joinPairs (l ++ [(k, v)]) ++ pidText pid := by
  rw [List.mem_append, not_or]
  refine ⟨?_, pidText_free pid (by decide) (by decide)⟩
  intro h
  obtain h | ⟨e, he, h⟩ := joinPairs_mem h
  · exact absurd h (by decide)
  · exact h.elim (hl.no_nul e he).1 (hl.no_nul e he).2

theorem pairsOf_backData :
    pairsOf (joinPairs (l ++ [(k, v)]) ++ pidText pid) = l ++ [(k, trim (v ++ pidText pid))] := by
  have hlast : (k, v) ∈ l ++ [(k, v)] := by simp
  obtain ⟨hk, hv⟩ := hl.clean _ hlast
  have hamp : 38 ∉ v ++ pidText pid := by
    rw [List.mem_append, not_or]
    exact ⟨hv.no_amp, pidText_free pid (by decide) (by decide)⟩
  have heq : 61 ∉ v ++ pidText pid := by
    rw [List.mem_append, not_or]
    exact ⟨hv.no_eq, pidText_free pid (by decide) (by decide)⟩
  rw [joinPairs_append]
  exact pairsOf_concat (fun e he => hl.clean e (List.mem_append_left _ he)) hk hamp heq

/-- Every parameter comes through, the last one with its tail, exactly if none
is reserved and the last value is not empty. -/
theorem params_kept_iff {P : List (Bytes × Bytes)} (hP : P = l ++ [(k, trim (v ++ pidText pid))]) :
    (∀ e ∈ l ++ [(k, v ++ pidText pid)], e ∈ P ∧ e.1 ∉ reservedKeys) ↔
      (∀ e ∈ l ++ [(k, v)], e.1 ∉ reservedKeys) ∧ v ≠ [] := by
  have hlast : (k, v) ∈ l ++ [(k, v)] := by simp
  have htrim := trim_pidText (hl.clean _ hlast).2.trimmed pid
  constructor
  · intro h
    obtain ⟨hmem, hkey⟩ := h (k, v ++ pidText pid) (by simp)
    refine ⟨?_, ?_⟩
    · intro e he
      rcases List.mem_append.mp he with he | he
      · exact (h e (List.mem_append_left _ he)).2
      · rw [List.mem_singleton.mp he]
        exact hkey
    · rw [hP] at hmem
      rcases List.mem_append.mp hmem with hmem | hmem
      · have hdistinct := hl.distinct
        rw [List.map_append, List.nodup_append] at hdistinct
        exact absurd rfl (hdistinct.2.2 k (List.mem_map_of_mem hmem) k (by simp))
      · have hsame := (Prod.mk.inj (List.mem_singleton.mp hmem)).2
        exact htrim.mp hsame.symm
  · rintro ⟨hkeys, hv⟩ e he
    rw [hP, htrim.mpr hv]
    refine ⟨he, ?_⟩
    rcases List.mem_append.mp he with he | he
    · exact hkeys e (List.mem_append_left _ he)
    · rw [List.mem_singleton.mp he]
      exact hkeys (k, v) hlast

end

/-- A reply of svc_test to the client 10.0.0.1 on descriptor 5. -/
def sampleReply (data : Bytes) : CCmd :=
  { iFd := 5, iCmd := 1, ifamily := 2, sClientIp := bytes "10.0.0.1", iPort := 4000, sData := data }

theorem sampleReply_plain (data : Bytes) : PlainIp (sampleReply data).sClientIp :=
  inetNtoa_plain ⟨10, 0, 0, 1⟩

theorem replyParams_resp :
    ReplyParams ([(bytes "resp1", bytes "r1")] ++ [(bytes "resp2", bytes "r 2")]) := by
  refine ⟨?_, ?_, by decide⟩
  · intro e he
    rcases List.mem_pair.mp he with rfl | rfl
    · exact ⟨⟨by decide, by decide, by decide⟩, ⟨by decide, by decide, by decide⟩⟩
    · exact ⟨⟨by decide, by decide, by decide⟩, ⟨by decide, by decide, by decide⟩⟩
  · intro e he
    rcases List.mem_pair.mp he with rfl | rfl
    · exact ⟨by decide, by decide⟩
    · exact ⟨by decide, by decide⟩

/-- netio with the reply of process 7 in its queue. -/
def sampleBack (data : Bytes) : Reactor :=
  { sampleConn with
    kernel := sampleConn.kernel.setQueues (Function.update (fun _ => []) NET_IO_BACK_MSQ_KEY
      [cmdMsg RESPONSE.toInt (backCmd 7 (sampleReply data))]) }

theorem sampleBack_stored (data text : Bytes)
    (h : ((sampleBack data).onEventFire false none).toOption.any
      (fun s' => decide ((s'.m_arrMsg 5).text = text)) = true) :
    ∃ s', (sampleBack data).onEventFire false none = .ok s' ∧ (s'.m_arrMsg 5).text = text := by
  cases hfire : (sampleBack data).onEventFire false none with
  | error e =>
    rw [hfire] at h
    contradiction
  | ok s' =>
    rw [hfire] at h
    exact ⟨s', rfl, of_decide_eq_true h⟩

end NetioMiddleware
