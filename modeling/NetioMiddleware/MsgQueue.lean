import NetioMiddleware.CmdRoundTrip

namespace NetioMiddleware

/-- MsgBuf_T: a message type and the char array sBuf. -/
structure MsgBuf where
  lType : Int
  sBuf : Bytes
  size : sBuf.length = MAX_MSG_SIZE - 8

/-- A message in a kernel queue, no longer than the array it came from. -/
structure QMsg where
  mtype : Int
  mtext : Bytes
  fits : mtext.length ≤ MAX_MSG_SIZE - 8
  deriving DecidableEq

namespace MsgBuf

def reset : MsgBuf := ⟨0, List.replicate (MAX_MSG_SIZE - 8) 0, List.length_replicate⟩

def withType (m : MsgBuf) (lType : Int) : MsgBuf := { m with lType := lType }

/-- The C string in sBuf. -/
def text (m : MsgBuf) : Bytes := cStr m.sBuf

/-- snprintf(sBuf, sizeof(sBuf), ...): the formatted text, cut to leave room
for its NUL, replaces the front of the array. -/
def print (m : MsgBuf) (formatted : Bytes) : MsgBuf where
  lType := m.lType
  sBuf := formatted.take (MAX_MSG_SIZE - 8 - 1) ++
    0 :: m.sBuf.drop ((formatted.take (MAX_MSG_SIZE - 8 - 1)).length + 1)
  size := by
    have := m.size
    simp only [MAX_MSG_SIZE, List.length_append, List.length_cons, List.length_drop,
      List.length_take] at this ⊢
    omega

/-- oCmd.ToString(stMsg.sBuf, sizeof(stMsg.sBuf)). -/
def printCmd (m : MsgBuf) (c : CCmd) : MsgBuf :=
  m.print (c.toStringBuf (MAX_MSG_SIZE - 8))

end MsgBuf

/-- CMsgQueue::PutMsg. Besides a full queue (`sent` false), msgsnd refuses a
type below 1. -/
def putMsg (q : List QMsg) (pBuf : MsgBuf) (dwBufLen : Nat) (sent : Bool) : Int32 × List QMsg :=
  if MAX_MSG_SIZE < dwBufLen then (MSG_TOO_LONG, q)
  else if sent = true ∧ 0 < pBuf.lType then
    (0, q ++ [⟨pBuf.lType, pBuf.sBuf.take dwBufLen, by
      have := pBuf.size
      simp only [List.length_take]
      omega⟩])
  else (SEND_MSG_FAILED, q)

/-- CMsgQueue::GetMsg with the positive type every caller asks for: the first
message of that type overwrites the front of sBuf; without one the buffer
stays as it is and the length is 0. -/
def getMsg (q : List QMsg) (pBuf : MsgBuf) : Nat × MsgBuf × List QMsg :=
  match q.find? (fun m => m.mtype == pBuf.lType) with
  | none => (0, pBuf, q)
  | some m =>
    (m.mtext.length,
      { lType := m.mtype
        sBuf := m.mtext ++ pBuf.sBuf.drop m.mtext.length
        size := by
          have h1 := m.fits
          have h2 := pBuf.size
          simp only [List.length_append, List.length_drop]
          omega },
      q.eraseP (fun m => m.mtype == pBuf.lType))

theorem getMsg_subset {q : List QMsg} {pBuf : MsgBuf} {x : QMsg} (h : x ∈ (getMsg q pBuf).2.2) :
    x ∈ q := by
  unfold getMsg at h
  split at h
  next => exact h
  next => exact List.mem_of_mem_eraseP h

theorem print_text {m : MsgBuf} {formatted : Bytes} (h : 0 ∉ formatted) :
    (m.print formatted).text = formatted.take (MAX_MSG_SIZE - 8 - 1) :=
  cStr_append_nul (fun h0 => h (List.mem_of_mem_take h0))

theorem print_take_text {m : MsgBuf} {formatted : Bytes} (h : 0 ∉ formatted) :
    (m.print formatted).sBuf.take (m.print formatted).text.length =
      formatted.take (MAX_MSG_SIZE - 8 - 1) := by
  rw [print_text h]
  simp [MsgBuf.print]

/-- The text the queue carries for a command: the header and as much of the
data as the array holds. -/
def encode (c : CCmd) : Bytes :=
  (formatHeader c (cStr c.sClientIp) ++ cStr c.sData).take (MAX_MSG_SIZE - 8 - 1)

theorem toStringBuf_no_nul (c : CCmd) (n : Nat) : 0 ∉ c.toStringBuf n := by
  intro h
  have h := List.mem_of_mem_take h
  rw [List.mem_append] at h
  exact h.elim (formatHeader_no_nul c (cStr_no_nul _)) (cStr_no_nul _)

theorem encode_length (c : CCmd) : (encode c).length ≤ MAX_MSG_SIZE - 8 := by
  simp only [encode, List.length_take]
  omega

theorem printCmd_text (m : MsgBuf) (c : CCmd) : (m.printCmd c).text = encode c := by
  rw [MsgBuf.printCmd, print_text (toStringBuf_no_nul c _), CCmd.toStringBuf, List.take_take]
  simp [encode, MAX_MSG_SIZE]

/-- The message one of the callers' pairs ToString and PutMsg leaves in the queue. -/
def cmdMsg (mtype : Int) (c : CCmd) : QMsg := ⟨mtype, encode c, encode_length c⟩

theorem putMsg_printCmd {q : List QMsg} {m : MsgBuf} {c : CCmd} (ht : 0 < m.lType) :
    putMsg q (m.printCmd c) (m.printCmd c).text.length true = (0, q ++ [cmdMsg m.lType c]) := by
  have hlen : (m.printCmd c).text.length ≤ MAX_MSG_SIZE - 8 := by
    rw [printCmd_text]
    exact encode_length c
  have htake : (m.printCmd c).sBuf.take (m.printCmd c).text.length = encode c := by
    rw [← printCmd_text m c, MsgBuf.printCmd, print_text (toStringBuf_no_nul c _),
      ← print_take_text (m := m) (toStringBuf_no_nul c _)]
    simp
  simp only [MAX_MSG_SIZE] at hlen
  have hle : ¬MAX_MSG_SIZE < (m.printCmd c).text.length := by
    simp only [MAX_MSG_SIZE]
    omega
  simp only [putMsg, if_neg hle, htake, cmdMsg]
  rw [if_pos ⟨trivial, ht⟩]
  rfl

theorem putMsg_cases (q : List QMsg) (m : MsgBuf) (c : CCmd) (sent : Bool) :
    (putMsg q (m.printCmd c) (m.printCmd c).text.length sent).2 =
      if sent = true ∧ 0 < m.lType then q ++ [cmdMsg m.lType c] else q := by
  split
  next h => rw [h.1, putMsg_printCmd h.2]
  next h =>
    unfold putMsg
    split
    next => rfl
    next =>
      split
      next h' => exact absurd h' h
      next => rfl

theorem putMsg_failed {q : List QMsg} {m : MsgBuf} {n : Nat} {sent : Bool}
    (h : (putMsg q m n sent).1 ≠ 0) : (putMsg q m n sent).2 = q := by
  unfold putMsg at h ⊢
  split
  next => rfl
  next hlen =>
    rw [if_neg hlen] at h
    split
    next hs =>
      rw [if_pos hs] at h
      exact absurd rfl h
    next => rfl

theorem cStr_append_zeros (b : Bytes) (n : Nat) : cStr (b ++ List.replicate n 0) = cStr b := by
  induction b with
  | nil => cases n <;> simp [cStr, List.replicate_succ]
  | cons c b ih =>
    by_cases hc : c = 0
    · simp [cStr, hc]
    · simpa [cStr, hc] using ih

theorem initCCmd_congr {c : CCmd} {a b : Bytes} (h : cStr a = cStr b) :
    initCCmd c a = initCCmd c b := by
  rw [initCCmd_eq, initCCmd_eq, h]

theorem getMsg_first {a b : List QMsg} {m : QMsg} {t : Int} (ha : ∀ x ∈ a, x.mtype ≠ t)
    (hm : m.mtype = t) :
    ∃ buf, getMsg (a ++ m :: b) (MsgBuf.reset.withType t) = (m.mtext.length, buf, a ++ b) ∧
      ∀ c, initCCmd c buf.sBuf = initCCmd c m.mtext := by
  have hfind : (a ++ m :: b).find? (fun x => x.mtype == t) = some m := by
    refine List.find?_eq_some_iff_append.mpr ⟨by simpa using hm, a, b, rfl, ?_⟩
    intro x hx
    simpa using ha x hx
  have herase : (a ++ m :: b).eraseP (fun x => x.mtype == t) = a ++ b := by
    rw [List.eraseP_append_right _ (fun x hx => by simpa using ha x hx),
      List.eraseP_cons_of_pos (by simpa using hm)]
  simp only [getMsg, MsgBuf.withType, hfind, herase]
  refine ⟨_, rfl, ?_⟩
  intro c
  apply initCCmd_congr
  simp only [MsgBuf.reset, List.drop_replicate]
  exact cStr_append_zeros _ _

theorem getMsg_none {q : List QMsg} {t : Int} (h : ∀ x ∈ q, x.mtype ≠ t) :
    getMsg q (MsgBuf.reset.withType t) = (0, MsgBuf.reset.withType t, q) := by
  have hfind : q.find? (fun x => x.mtype == t) = none :=
    List.find?_eq_none.mpr (fun x hx => by simpa using h x hx)
  simp only [getMsg, MsgBuf.withType, hfind]

/-- The nine header fields of a command: everything but sData. -/
structure Header where
  iRet : Int32
  iType : Int32
  iIndex : Int32
  iSvcSerialNo : Int32
  iCmd : Int32
  iFd : Int32
  ifamily : Int32
  sClientIp : Bytes
  iPort : Int32
  deriving DecidableEq

def CCmd.header (c : CCmd) : Header :=
  ⟨c.iRet, c.iType, c.iIndex, c.iSvcSerialNo, c.iCmd, c.iFd, c.ifamily, c.sClientIp, c.iPort⟩

/-- An address text that stays one value of one parameter. -/
structure PlainIp (ip : Bytes) : Prop where
  clean : CleanText ip
  no_nul : 0 ∉ ip
  short : ip.length ≤ 15

theorem formatHeader_length (c : CCmd) {cliIp : Bytes} (h : cliIp.length ≤ 15) :
    (formatHeader c cliIp).length ≤ 164 := by
  have keys : (bytes "ret").length = 3 ∧ (bytes "type").length = 4 ∧ (bytes "index").length = 5 ∧
      (bytes "serialno").length = 8 ∧ (bytes "cmd").length = 3 ∧ (bytes "fd").length = 2 ∧
      (bytes "family").length = 6 ∧ (bytes "cliIp").length = 5 ∧ (bytes "cliPort").length = 7 ∧
      (bytes "&").length = 1 := by decide
  have h1 := dec_length c.iRet
  have h2 := dec_length c.iType
  have h3 := dec_length c.iIndex
  have h4 := dec_length c.iSvcSerialNo
  have h5 := dec_length c.iCmd
  have h6 := dec_length c.iFd
  have h7 := dec_length c.ifamily
  have h8 := dec_length c.iPort
  simp only [formatHeader, headerPairs, joinPairs, List.map_cons, List.map_nil,
    List.intercalate_cons_cons, List.intercalate_singleton, List.length_append, List.length_cons,
    List.length_nil, keys]
  omega

theorem formatHeader_length_pos (c : CCmd) (cliIp : Bytes) : 0 < (formatHeader c cliIp).length := by
  have hsep : (bytes "&").length = 1 := by decide
  simp only [formatHeader, List.length_append, hsep]
  omega

/-- The room the array has for the data behind a command's header. -/
def dataRoom (c : CCmd) : Nat := MAX_MSG_SIZE - 8 - 1 - (formatHeader c c.sClientIp).length

/-- A text cut by the array still starts with the whole header. -/
theorem encode_eq {c : CCmd} (hip : PlainIp c.sClientIp) :
    encode c = formatHeader c c.sClientIp ++ (cStr c.sData).take (dataRoom c) := by
  have hlen := formatHeader_length c hip.short
  rw [encode, cStr_eq_self hip.no_nul, List.take_append, List.take_of_length_le]
  · rfl
  · simp only [MAX_MSG_SIZE]
    omega

theorem initCCmd_encode_header (c₀ : CCmd) {c : CCmd} (hip : PlainIp c.sClientIp) :
    (initCCmd c₀ (encode c)).header = c.header := by
  have hdata : 0 ∉ (cStr c.sData).take (dataRoom c) := fun h => cStr_no_nul _ (List.mem_of_mem_take h)
  rw [encode_eq hip]
  generalize (cStr c.sData).take (dataRoom c) = data at hdata
  rw [initCCmd_format c₀ c hip.clean hip.no_nul hdata]
  rfl

/-- Whatever sData holds and however much of it is cut off, a command written
into a message, put into a queue, taken out and decoded keeps its header. -/
theorem header_through_queue (c c₀ : CCmd) (stMsg : MsgBuf) (t : Int) (q : List QMsg) (ht : 0 < t)
    (trimmed : trim c.sClientIp = c.sClientIp) (hamp : 38 ∉ c.sClientIp) (heq : 61 ∉ c.sClientIp)
    (hnul : 0 ∉ c.sClientIp) (hlen : c.sClientIp.length ≤ 15) :
    ∃ msg : QMsg,
      putMsg q ((stMsg.withType t).printCmd c) ((stMsg.withType t).printCmd c).text.length true =
        (0, q ++ [msg]) ∧
      ∀ a b : List QMsg, (∀ x ∈ a, x.mtype ≠ t) →
        ∃ buf, getMsg (a ++ msg :: b) (MsgBuf.reset.withType t) = (msg.mtext.length, buf, a ++ b) ∧
          (initCCmd c₀ buf.sBuf).header = c.header := by
  refine ⟨cmdMsg t c, putMsg_printCmd (m := stMsg.withType t) ht, ?_⟩
  intro a b ha
  obtain ⟨buf, hget, hdec⟩ := getMsg_first (b := b) (m := cmdMsg t c) ha rfl
  refine ⟨buf, hget, ?_⟩
  rw [hdec]
  exact initCCmd_encode_header c₀ ⟨⟨hamp, heq, trimmed⟩, hnul, hlen⟩

theorem header_through_queue_reserved_data :
    ∃ msg : QMsg,
      putMsg [] ((MsgBuf.reset.withType 1).printCmd
          { iRet := 7, sClientIp := bytes "10.0.0.1", sData := bytes "ret=1&fd=2" })
        ((MsgBuf.reset.withType 1).printCmd
          { iRet := 7, sClientIp := bytes "10.0.0.1", sData := bytes "ret=1&fd=2" }).text.length true =
        (0, [] ++ [msg]) ∧
      ∀ a b : List QMsg, (∀ x ∈ a, x.mtype ≠ 1) →
        ∃ buf, getMsg (a ++ msg :: b) (MsgBuf.reset.withType 1) = (msg.mtext.length, buf, a ++ b) ∧
          (initCCmd {} buf.sBuf).header =
            ({ iRet := 7, sClientIp := bytes "10.0.0.1", sData := bytes "ret=1&fd=2" } : CCmd).header :=
  header_through_queue _ {} MsgBuf.reset 1 [] (by decide) (by decide) (by decide) (by decide)
    (by decide) (by decide)

end NetioMiddleware
