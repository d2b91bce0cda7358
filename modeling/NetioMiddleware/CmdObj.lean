import NetioMiddleware.StringHelper
import NetioMiddleware.GlobalDefine

namespace NetioMiddleware

structure CCmd where
  iIndex : Int32 := 0
  iSvcSerialNo : Int32 := 0
  iFd : Int32 := 0
  iCmd : Int32 := 0
  ifamily : Int32 := 0
  sClientIp : Bytes := []
  iPort : Int32 := 0
  sData : Bytes := []
  iRet : Int32 := 0
  iType : Int32 := 0
  deriving DecidableEq

/-- The conversion %d of an int field. -/
def dec (i : Int32) : Bytes := printInt i.toInt

/-- The nine fields of the format string, in its order, with cliIp as it
reaches the text. -/
def headerPairs (c : CCmd) (cliIp : Bytes) : List (Bytes × Bytes) :=
  [(bytes "ret", dec c.iRet), (bytes "type", dec c.iType), (bytes "index", dec c.iIndex),
    (bytes "serialno", dec c.iSvcSerialNo), (bytes "cmd", dec c.iCmd), (bytes "fd", dec c.iFd),
    (bytes "family", dec c.ifamily), (bytes "cliIp", cliIp), (bytes "cliPort", dec c.iPort)]

/-- The text in front of sData: ret=..&type=..& and so on up to cliPort=..&. -/
def formatHeader (c : CCmd) (cliIp : Bytes) : Bytes := joinPairs (headerPairs c cliIp) ++ bytes "&"

namespace CCmd

/-- ToString(): the stream writes both strings whole. -/
def toString (c : CCmd) : Bytes := formatHeader c c.sClientIp ++ c.sData

/-- ToString(pBuf, iLen): what snprintf leaves in pBuf in front of its NUL.
%s stops at the first NUL of either string. -/
def toStringBuf (c : CCmd) (iLen : Nat) : Bytes :=
  (formatHeader c (cStr c.sClientIp) ++ cStr c.sData).take (iLen - 1)

end CCmd

example : CCmd.toString { iCmd := 2, sClientIp := bytes "10.0.0.1", iPort := -1, sData := bytes "a=b" } =
    bytes "ret=0&type=0&index=0&serialno=0&cmd=2&fd=0&family=0&cliIp=10.0.0.1&cliPort=-1&a=b" := by
  decide +kernel

def takeInt (mapPara : StrMap) (key : Bytes) (old : Int32) : Int32 × StrMap :=
  match mapPara.find? key with
  | some v => (Int32.ofInt (atoll v), mapPara.erase key)
  | none => (old, mapPara)

def initCCmd (c : CCmd) (pBuf : Bytes) : CCmd :=
  let mapPara := strPairAppendToMap (cStr pBuf) SortedMap.empty
  let ret := takeInt mapPara (bytes "ret") c.iRet
  let type := takeInt ret.2 (bytes "type") c.iType
  let cmd := takeInt type.2 (bytes "cmd") c.iCmd
  let fd := takeInt cmd.2 (bytes "fd") c.iFd
  let index := takeInt fd.2 (bytes "index") c.iIndex
  let serialno := takeInt index.2 (bytes "serialno") c.iSvcSerialNo
  let family := takeInt serialno.2 (bytes "family") c.ifamily
  let cliPort := takeInt family.2 (bytes "cliPort") c.iPort
  let cliIp := (cliPort.2.find? (bytes "cliIp")).getD c.sClientIp
  let rest := cliPort.2.erase (bytes "cliIp")
  { iRet := ret.1, iType := type.1, iCmd := cmd.1, iFd := fd.1, iIndex := index.1
    iSvcSerialNo := serialno.1, ifamily := family.1, iPort := cliPort.1
    sClientIp := cliIp, sData := joinPairs rest.entries }

/-- The names InitCCmd takes out of the parameters, in the order it looks for them. -/
def reservedKeys : List Bytes :=
  [bytes "ret", bytes "type", bytes "cmd", bytes "fd", bytes "index", bytes "serialno",
    bytes "family", bytes "cliPort", bytes "cliIp"]

def intField (m : StrMap) (key : Bytes) (old : Int32) : Int32 :=
  ((m.find? key).map (fun v => Int32.ofInt (atoll v))).getD old

theorem takeInt_eq (m : StrMap) (key : Bytes) (old : Int32) :
    takeInt m key old = (intField m key old, m.erase key) := by
  unfold takeInt intField
  split
  next v hv => simp [hv]
  next hn =>
    have herase : m.erase key = m := by
      apply SortedMap.ext_find?
      intro k
      rw [SortedMap.find?_erase]
      split
      next hk => rw [hk, hn]
      next => rfl
    simp [hn, herase]

theorem find?_erase_ne {m : StrMap} {key key' : Bytes} (h : ¬key' = key) :
    (m.erase key').find? key = m.find? key := by
  rw [SortedMap.find?_erase, if_neg (Ne.symm h)]

theorem intField_erase {m : StrMap} {key key' : Bytes} {old : Int32} (h : ¬key' = key) :
    intField (m.erase key') key old = intField m key old := by
  rw [intField, find?_erase_ne h, intField]

/-- InitCCmd in one piece: each header field is looked up in the map of all
parameters, and sData is what the map keeps without the reserved names. -/
theorem initCCmd_eq (c : CCmd) (pBuf : Bytes) :
    initCCmd c pBuf =
      let m := SortedMap.empty.insertAll (pairsOf (cStr pBuf))
      { iRet := intField m (bytes "ret") c.iRet, iType := intField m (bytes "type") c.iType
        iCmd := intField m (bytes "cmd") c.iCmd, iFd := intField m (bytes "fd") c.iFd
        iIndex := intField m (bytes "index") c.iIndex
        iSvcSerialNo := intField m (bytes "serialno") c.iSvcSerialNo
        ifamily := intField m (bytes "family") c.ifamily
        iPort := intField m (bytes "cliPort") c.iPort
        sClientIp := (m.find? (bytes "cliIp")).getD c.sClientIp
        sData := joinPairs (m.eraseAll reservedKeys).entries } := by
  have distinct : reservedKeys.Nodup := by decide
  simp only [reservedKeys, List.nodup_cons, List.mem_cons, not_or, List.not_mem_nil] at distinct
  simp only [initCCmd, takeInt_eq, strPairAppendToMap_eq, intField_erase, find?_erase_ne, distinct,
    not_false_eq_true]
  rfl

theorem dec_clean (i : Int32) : CleanText (dec i) := by
  have hb : ∀ x ∈ dec i, x = 45 ∨ isDigit x = true := fun x hx => printInt_bytes hx
  refine ⟨?_, ?_, trim_eq_self_of_no_blank ?_⟩
  · intro h
    exact absurd (hb 38 h) (by decide)
  · intro h
    exact absurd (hb 61 h) (by decide)
  · intro x hx
    have blanks : (bytes " \x0c\n\r\t\x0b").all (fun y => !(y == 45 || isDigit y)) = true := by decide
    by_contra hn
    have hblank := List.all_eq_true.mp blanks x (by simpa [isTrimmed] using hn)
    obtain rfl | hdigit := hb x hx
    · exact absurd hblank (by decide)
    · simp [hdigit] at hblank

theorem atoll_dec (i : Int32) : Int32.ofInt (atoll (dec i)) = i := by
  have lo := Int32.le_toInt i
  have hi := Int32.toInt_lt i
  rw [dec, atoll_printInt (by omega) (by omega), Int32.ofInt_toInt]

theorem dec_no_nul (i : Int32) : 0 ∉ dec i := by
  intro h
  exact absurd (printInt_bytes h) (by decide)

theorem dec_length (i : Int32) : (dec i).length ≤ 11 := by
  have lo := Int32.le_toInt i
  have hi := Int32.toInt_lt i
  exact printInt_length (k := 9) (by omega)

theorem formatHeader_append (c : CCmd) (cliIp data : Bytes) :
    formatHeader c cliIp ++ data = joinPairs (headerPairs c cliIp) ++ 38 :: data := by
  simp [formatHeader, bytes]

theorem headerPairs_clean (c : CCmd) {cliIp : Bytes} (hip : CleanText cliIp) :
    ∀ e ∈ headerPairs c cliIp, CleanText e.1 ∧ CleanText e.2 := by
  have keys : ∀ k ∈ reservedKeys, 38 ∉ k ∧ 61 ∉ k ∧ k.all (fun x => !isTrimmed x) = true := by decide
  have clean : ∀ k ∈ reservedKeys, CleanText k := by
    intro k hk
    obtain ⟨hamp, heq, hblank⟩ := keys k hk
    exact ⟨hamp, heq, trim_eq_self_of_no_blank (fun x hx => by simpa using List.all_eq_true.mp hblank x hx)⟩
  intro e he
  simp only [headerPairs, List.mem_cons, List.not_mem_nil, or_false] at he
  rcases he with rfl | rfl | rfl | rfl | rfl | rfl | rfl | rfl | rfl
  all_goals
    refine ⟨clean _ ?_, ?_⟩
    · dsimp only; decide
    · first | exact dec_clean _ | exact hip

theorem pairsOf_formatHeader (c : CCmd) {cliIp : Bytes} (hip : CleanText cliIp) (data : Bytes) :
    pairsOf (formatHeader c cliIp ++ data) = headerPairs c cliIp ++ pairsOf data := by
  rw [formatHeader_append, pairsOf_append, pairsOf_joinPairs (headerPairs_clean c hip)]

/-- The parameters left once the nine reserved names are taken out. -/
def dataMap (m : StrMap) : StrMap := m.eraseAll reservedKeys

theorem dataMap_insertAll_header (c : CCmd) (cliIp : Bytes) (l : List (Bytes × Bytes)) :
    dataMap (SortedMap.empty.insertAll (headerPairs c cliIp ++ l)) =
      dataMap (SortedMap.empty.insertAll l) := by
  apply SortedMap.ext_find?
  intro k
  simp only [dataMap, SortedMap.find?_eraseAll]
  split
  next => rfl
  next hk =>
    have hnone : firstValue k (headerPairs c cliIp) = none := by
      apply firstValue_eq_none_iff.mpr
      intro e he
      have hmem : e.1 ∈ reservedKeys := by
        simp only [headerPairs, List.mem_cons, List.not_mem_nil, or_false] at he
        rcases he with rfl | rfl | rfl | rfl | rfl | rfl | rfl | rfl | rfl
        all_goals dsimp only; decide
      exact fun heq => hk (heq ▸ hmem)
    simp only [SortedMap.find?_insertAll, firstValue_append, hnone, Option.none_or]

theorem firstValue_headerPairs (c : CCmd) (cliIp : Bytes) :
    (firstValue (bytes "ret") (headerPairs c cliIp) = some (dec c.iRet) ∧
      firstValue (bytes "type") (headerPairs c cliIp) = some (dec c.iType) ∧
      firstValue (bytes "index") (headerPairs c cliIp) = some (dec c.iIndex) ∧
      firstValue (bytes "serialno") (headerPairs c cliIp) = some (dec c.iSvcSerialNo) ∧
      firstValue (bytes "cmd") (headerPairs c cliIp) = some (dec c.iCmd)) ∧
    firstValue (bytes "fd") (headerPairs c cliIp) = some (dec c.iFd) ∧
      firstValue (bytes "family") (headerPairs c cliIp) = some (dec c.ifamily) ∧
      firstValue (bytes "cliIp") (headerPairs c cliIp) = some cliIp ∧
      firstValue (bytes "cliPort") (headerPairs c cliIp) = some (dec c.iPort) := by
  have distinct : [bytes "ret", bytes "type", bytes "index", bytes "serialno", bytes "cmd",
      bytes "fd", bytes "family", bytes "cliIp", bytes "cliPort"].Nodup := by decide
  simp only [List.nodup_cons, List.mem_cons, not_or, List.not_mem_nil] at distinct
  simp only [headerPairs, firstValue, distinct, if_true, if_false, and_self]

theorem formatHeader_no_nul (c : CCmd) {cliIp : Bytes} (hnul : 0 ∉ cliIp) :
    0 ∉ formatHeader c cliIp := by
  have keys : ∀ k ∈ reservedKeys, 0 ∉ k := by decide
  rw [formatHeader, List.mem_append, not_or]
  refine ⟨?_, by decide⟩
  intro h
  obtain h | ⟨e, he, h⟩ := joinPairs_mem h
  · revert h; decide
  · simp only [headerPairs, List.mem_cons, List.not_mem_nil, or_false] at he
    rcases h with h | h
    · refine keys e.1 ?_ h
      rcases he with rfl | rfl | rfl | rfl | rfl | rfl | rfl | rfl | rfl
      all_goals dsimp only; decide
    · rcases he with rfl | rfl | rfl | rfl | rfl | rfl | rfl | rfl | rfl
      all_goals first | exact dec_no_nul _ h | exact hnul h

/-- Decoding a text that starts with an intact header gives back the header,
whatever follows it. -/
theorem initCCmd_format (c₀ c : CCmd) {cliIp data : Bytes} (hip : CleanText cliIp)
    (hnul : 0 ∉ cliIp) (hdata : 0 ∉ data) :
    initCCmd c₀ (formatHeader c cliIp ++ data) =
      { c with
        sClientIp := cliIp
        sData := joinPairs (dataMap (SortedMap.empty.insertAll (pairsOf data))).entries } := by
  have hfree : 0 ∉ formatHeader c cliIp ++ data := by
    rw [List.mem_append, not_or]
    exact ⟨formatHeader_no_nul c hnul, hdata⟩
  have lookup : ∀ k v, firstValue k (headerPairs c cliIp) = some v →
      (SortedMap.empty.insertAll (headerPairs c cliIp ++ pairsOf data)).find? k = some v := by
    intro k v h
    rw [SortedMap.find?_insertAll, firstValue_append, h]
    rfl
  have int : ∀ k i old, firstValue k (headerPairs c cliIp) = some (dec i) →
      intField (SortedMap.empty.insertAll (headerPairs c cliIp ++ pairsOf data)) k old = i := by
    intro k i old h
    rw [intField, lookup k _ h, Option.map_some, Option.getD_some, atoll_dec]
  obtain ⟨⟨hret, htype, hindex, hserial, hcmd⟩, hfd, hfamily, hcliIp, hport⟩ :=
    firstValue_headerPairs c cliIp
  rw [initCCmd_eq, cStr_eq_self hfree, pairsOf_formatHeader c hip]
  have hd := dataMap_insertAll_header c cliIp (pairsOf data)
  unfold dataMap at hd
  simp only [hd, int _ _ _ hret, int _ _ _ htype, int _ _ _ hindex, int _ _ _ hserial,
    int _ _ _ hcmd, int _ _ _ hfd, int _ _ _ hfamily, int _ _ _ hport, lookup _ _ hcliIp,
    Option.getD_some]
  rfl

end NetioMiddleware
