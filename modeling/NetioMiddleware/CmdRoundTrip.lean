import NetioMiddleware.CmdObj

namespace NetioMiddleware

theorem CleanText.nil : CleanText [] := ⟨by simp, by simp, rfl⟩

theorem pairsOf_insertAll_mem {s : Bytes} {e : Bytes × Bytes}
    (h : (SortedMap.empty.insertAll (pairsOf s)).find? e.1 = some e.2) : e ∈ pairsOf s := by
  rw [SortedMap.find?_insertAll, SortedMap.find?_empty, Option.none_or] at h
  exact firstValue_mem h

theorem initCCmd_fresh_cliIp {s : Bytes} (hs : 0 ∉ s) :
    CleanText (initCCmd {} s).sClientIp ∧ 0 ∉ (initCCmd {} s).sClientIp := by
  rw [initCCmd_eq, cStr_eq_self hs]
  cases hf : (SortedMap.empty.insertAll (pairsOf s)).find? (bytes "cliIp") with
  | none => simpa [hf] using CleanText.nil
  | some v =>
    obtain ⟨⟨_, hv⟩, _, hsub⟩ := pairsOf_mem (pairsOf_insertAll_mem (e := (bytes "cliIp", v)) hf)
    simpa [hf] using ⟨hv, fun h0 => hs (hsub 0 h0)⟩

/-- The parameters InitCCmd keeps are clean, so that sData parses back to them. -/
theorem dataMap_entry_mem {s : Bytes} {e : Bytes × Bytes}
    (h : e ∈ (dataMap (SortedMap.empty.insertAll (pairsOf s))).entries) : e ∈ pairsOf s := by
  have hf := SortedMap.find?_eq_some_iff.mpr h
  rw [dataMap, SortedMap.find?_eraseAll] at hf
  split at hf
  next => contradiction
  next => exact pairsOf_insertAll_mem hf

theorem dataMap_idempotent (m : StrMap) : dataMap (dataMap m) = dataMap m := by
  apply SortedMap.ext_find?
  intro k
  simp only [dataMap, SortedMap.find?_eraseAll]
  split <;> rfl

theorem dataMap_parse_join {s : Bytes} :
    let m := dataMap (SortedMap.empty.insertAll (pairsOf s))
    dataMap (SortedMap.empty.insertAll (pairsOf (joinPairs m.entries))) = m := by
  intro m
  have hclean : ∀ e ∈ m.entries, CleanText e.1 ∧ CleanText e.2 := fun e he =>
    (pairsOf_mem (dataMap_entry_mem he)).1
  rw [pairsOf_joinPairs hclean, SortedMap.empty_insertAll_entries]
  exact dataMap_idempotent _

theorem initCCmd_fresh_no_nul {s : Bytes} (hs : 0 ∉ s) : 0 ∉ (initCCmd {} s).sData := by
  rw [initCCmd_eq, cStr_eq_self hs]
  intro h
  obtain h | ⟨e, he, h⟩ := joinPairs_mem h
  · revert h; decide
  · obtain ⟨_, hk, hv⟩ := pairsOf_mem (dataMap_entry_mem he)
    exact h.elim (fun h0 => hs (hk 0 h0)) (fun h0 => hs (hv 0 h0))

theorem initCCmd_sData {s : Bytes} (hs : 0 ∉ s) :
    (initCCmd {} s).sData = joinPairs (dataMap (SortedMap.empty.insertAll (pairsOf s))).entries := by
  rw [initCCmd_eq, cStr_eq_self hs]
  rfl

/-- Encoding a decoded command and decoding it again changes no field, through
either overload of ToString. -/
theorem initCCmd_toString_image (s : Bytes) (hs : 0 ∉ s) :
    initCCmd {} (initCCmd {} s).toString = initCCmd {} s ∧
      ∀ n, (initCCmd {} s).toString.length < n →
        initCCmd {} ((initCCmd {} s).toStringBuf n) = initCCmd {} s := by
  obtain ⟨hip, hipnul⟩ := initCCmd_fresh_cliIp hs
  have hdata := initCCmd_fresh_no_nul hs
  have hsData := initCCmd_sData hs
  have decoded : initCCmd {} (initCCmd {} s).toString = initCCmd {} s := by
    rw [CCmd.toString, initCCmd_format {} _ hip hipnul hdata]
    conv_lhs => rw [hsData, dataMap_parse_join, ← hsData]
  refine ⟨decoded, ?_⟩
  intro n hn
  have htext : (initCCmd {} s).toStringBuf n = (initCCmd {} s).toString := by
    rw [CCmd.toStringBuf, cStr_eq_self hipnul, cStr_eq_self hdata]
    exact List.take_of_length_le (by rw [CCmd.toString] at hn; omega)
  rw [htext, decoded]

theorem initCCmd_toString_image_duplicate_keys :
    initCCmd {} (initCCmd {} (bytes "=&b= 1&cmd =7&b=2&=x")).toString =
        initCCmd {} (bytes "=&b= 1&cmd =7&b=2&=x") ∧
      ∀ n, (initCCmd {} (bytes "=&b= 1&cmd =7&b=2&=x")).toString.length < n →
        initCCmd {} ((initCCmd {} (bytes "=&b= 1&cmd =7&b=2&=x")).toStringBuf n) =
          initCCmd {} (bytes "=&b= 1&cmd =7&b=2&=x") :=
  initCCmd_toString_image _ (by decide)

end NetioMiddleware
