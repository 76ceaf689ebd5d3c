import CanSniffer.Lib.JsonCompact
import CanSniffer.Logging.ErrorRecorderLaws
import CanSniffer.Web.FsCustom
import CanSniffer.Web.JsonPages

namespace CanSniffer.Web

open Lib Decimal Logging

section Append

variable {bufferSize : Nat}

theorem appendJson_of_lt {text buffer : List UInt8}
    (h : buffer.length + text.length < bufferSize) :
    appendJson bufferSize text buffer = some (buffer ++ text) := by
  rw [appendJson, if_neg (by omega), if_neg (by omega)]

def recentText (e : ErrorRecorderEntry × Nat) : List UInt8 :=
  if 0 < e.2 then ascii "," ++ errorEntryText e.1 else errorEntryText e.1

theorem appendRecent_of_lt {e : ErrorRecorderEntry × Nat} {buffer : List UInt8}
    (h : buffer.length + (recentText e).length < bufferSize) :
    appendRecent bufferSize buffer e = some (buffer ++ recentText e) := by
  unfold recentText at h ⊢
  unfold appendRecent
  split
  · next hpos =>
    rw [if_pos hpos, List.length_append] at h
    rw [appendJson_of_lt (by omega), Option.bind_some,
      appendJson_of_lt (by rw [List.length_append]; omega), List.append_assoc]
  · next hpos =>
    rw [if_neg hpos] at h
    exact appendJson_of_lt h

theorem appendAll_of_lt {es : List (ErrorRecorderEntry × Nat)} {buffer : List UInt8}
    (h : buffer.length + (es.flatMap recentText).length < bufferSize) :
    es.foldlM (appendRecent bufferSize) buffer = some (buffer ++ es.flatMap recentText) := by
  induction es generalizing buffer with
  | nil =>
    rw [List.flatMap_nil, List.append_nil]
    rfl
  | cons e es ih =>
    rw [List.flatMap_cons, List.length_append] at h
    rw [List.foldlM_cons, appendRecent_of_lt (by omega), Option.bind_eq_bind, Option.bind_some,
      ih (by rw [List.length_append]; omega), List.flatMap_cons, List.append_assoc]

end Append

def entryTree (e : ErrorRecorderEntry) : Json :=
  .object [(ascii "seq", .ofNat e.sequence.toNat), (ascii "id", .ofNat e.context.id.toNat),
    (ascii "code", .ofNat e.context.code.toNat), (ascii "line", .ofNat e.context.line.toNat),
    (ascii "arg0", .ofNat e.context.arg0.toNat), (ascii "arg1", .ofNat e.context.arg1.toNat),
    (ascii "file", .string (stringOf e.context.file.toList)),
    (ascii "function", .string (stringOf e.context.function.toList))]

theorem errorEntryText_eq (e : ErrorRecorderEntry) : errorEntryText e = (entryTree e).compact := by
  simp only [errorEntryText, entryTree, Json.ofNat, Json.compact, Json.compactMembers,
    List.append_assoc, List.cons_append, List.nil_append]
  rfl

theorem length_errorEntryText_le (e : ErrorRecorderEntry) : (errorEntryText e).length ≤ 209 := by
  have hlen : (errorEntryText e).length =
      7 + (unsigned e.sequence.toNat).length + 6 + (unsigned e.context.id.toNat).length + 8 +
        (unsigned e.context.code.toNat).length + 8 + (unsigned e.context.line.toNat).length + 8 +
        (unsigned e.context.arg0.toNat).length + 8 + (unsigned e.context.arg1.toNat).length + 9 +
        (stringOf e.context.file.toList).length + 14 +
        (stringOf e.context.function.toList).length + 2 := by
    simp only [errorEntryText, List.length_append]
    rfl
  have hstring (n : Nat) (v : Vector UInt8 n) : (stringOf v.toList).length ≤ n := by
    have hle := (List.takeWhile_sublist (fun b : UInt8 => decide (b ≠ 0)) (l := v.toList)).length_le
    rwa [Vector.length_toList] at hle
  have hline : (unsigned e.context.line.toNat).length ≤ 5 :=
    (length_unsigned_le_iff (by decide)).mpr (Nat.lt_trans e.context.line.toNat_lt (by decide))
  have h1 := length_unsigned_le_ten e.sequence.toNat_lt
  have h2 := length_unsigned_le_ten e.context.id.toNat_lt
  have h3 := length_unsigned_le_ten e.context.code.toNat_lt
  have h4 := length_unsigned_le_ten e.context.arg0.toNat_lt
  have h5 := length_unsigned_le_ten e.context.arg1.toNat_lt
  have h6 := hstring _ e.context.file
  have h7 := hstring _ e.context.function
  omega

def Plain (c : ErrorContext) : Prop :=
  (stringOf c.file.toList).all Json.isPlain = true ∧
    (stringOf c.function.toList).all Json.isPlain = true

theorem entryTree_lexical {e : ErrorRecorderEntry} (h : Plain e.context) : (entryTree e).Lexical :=
  ⟨Json.scanString_key rfl, Json.lexical_ofNat _, Json.scanString_key rfl, Json.lexical_ofNat _,
    Json.scanString_key rfl, Json.lexical_ofNat _, Json.scanString_key rfl, Json.lexical_ofNat _,
    Json.scanString_key rfl, Json.lexical_ofNat _, Json.scanString_key rfl, Json.lexical_ofNat _,
    Json.scanString_key rfl, Json.lexical_string h.1, Json.scanString_key rfl,
    Json.lexical_string h.2, trivial⟩

def entryOrNullTree (valid : UInt8) (e : ErrorRecorderEntry) : Json :=
  if valid ≠ 0 then entryTree e else .null

theorem errorEntryOrNullText_eq (valid : UInt8) (e : ErrorRecorderEntry) :
    errorEntryOrNullText valid e = (entryOrNullTree valid e).compact := by
  unfold errorEntryOrNullText entryOrNullTree
  split
  · exact errorEntryText_eq e
  · rfl

theorem length_errorEntryOrNullText_le (valid : UInt8) (e : ErrorRecorderEntry) :
    (errorEntryOrNullText valid e).length ≤ 209 := by
  unfold errorEntryOrNullText
  split
  · exact length_errorEntryText_le e
  · decide

theorem flatMap_recentText {k : Nat} (hk : 0 < k) (es : List ErrorRecorderEntry) :
    (es.zipIdx k).flatMap recentText ++ ascii "]" =
      Json.compactElements (es.map entryTree) := by
  induction es generalizing k with
  | nil => rfl
  | cons e es ih =>
    have hfirst : recentText (e, k) = 0x2C :: (entryTree e).compact := by
      rw [recentText, if_pos hk, errorEntryText_eq]
      rfl
    rw [List.zipIdx_cons, List.flatMap_cons, hfirst, List.append_assoc, ih (Nat.succ_pos k)]
    rfl

theorem recentTexts_eq (es : List ErrorRecorderEntry) :
    ascii "[" ++ (es.zipIdx.flatMap recentText ++ ascii "]") =
      (Json.array (es.map entryTree)).compact := by
  cases es with
  | nil => rfl
  | cons e es =>
    have hfirst : recentText (e, 0) = (entryTree e).compact := by
      rw [recentText, if_neg (Nat.lt_irrefl 0), errorEntryText_eq]
    rw [List.zipIdx_cons, List.flatMap_cons, hfirst, List.append_assoc,
      flatMap_recentText Nat.one_pos]
    rfl

theorem length_recentTexts_le (es : List (ErrorRecorderEntry × Nat)) :
    (es.flatMap recentText).length ≤ es.length * 210 := by
  induction es with
  | nil => exact Nat.zero_le _
  | cons e es ih =>
    have hone : (recentText e).length ≤ 210 := by
      have hle := length_errorEntryText_le e.1
      unfold recentText
      split
      · rw [List.length_append, show (ascii ",").length = 1 from rfl]
        omega
      · omega
    rw [List.flatMap_cons, List.length_append, List.length_cons, Nat.succ_mul]
    omega

def snapshotTree (s : ErrorRecorderSnapshot) : Json :=
  .object [(ascii "total", .ofNat s.totalCount.toNat),
    (ascii "overwritten", .ofNat s.overwrittenCount.toNat),
    (ascii "first", entryOrNullTree s.firstValid s.first),
    (ascii "last", entryOrNullTree s.lastValid s.last),
    (ascii "recent_count", .ofNat s.recentCount.toNat),
    (ascii "recent", .array ((s.recent.toList.take s.recentCount.toNat).map entryTree))]

def snapshotText (s : ErrorRecorderSnapshot) : List UInt8 :=
  (ascii "\x7b\"total\":" ++ unsigned s.totalCount.toNat ++
    ascii ",\"overwritten\":" ++ unsigned s.overwrittenCount.toNat ++ ascii ",\"first\":") ++
  errorEntryOrNullText s.firstValid s.first ++ ascii ",\"last\":" ++
  errorEntryOrNullText s.lastValid s.last ++
  (ascii ",\"recent_count\":" ++ unsigned s.recentCount.toNat ++ ascii ",\"recent\":[") ++
  (s.recent.toList.take s.recentCount.toNat).zipIdx.flatMap recentText ++ ascii "]\x7d"

theorem snapshotText_eq (s : ErrorRecorderSnapshot) :
    snapshotText s = (snapshotTree s).compact := by
  have harray := recentTexts_eq (s.recent.toList.take s.recentCount.toNat)
  have hrecent : ascii ",\"recent\":[" ++
      ((s.recent.toList.take s.recentCount.toNat).zipIdx.flatMap recentText ++ ascii "]\x7d") =
        ascii ",\"recent\":" ++
          ((Json.array ((s.recent.toList.take s.recentCount.toNat).map entryTree)).compact ++
            ascii "\x7d") := by
    rw [← harray]
    simp only [List.append_assoc]
    rfl
  unfold snapshotText
  simp only [List.append_assoc]
  rw [hrecent]
  simp only [errorEntryOrNullText_eq, snapshotTree, Json.ofNat]
  generalize (Json.array ((s.recent.toList.take s.recentCount.toNat).map entryTree)) = recent
  simp only [Json.compact, Json.compactMembers]
  rfl

theorem length_snapshotText_lt (s : ErrorRecorderSnapshot) :
    (snapshotText s).length < FsBuffer.debugData.size - FsCustom.headerSize true := by
  have hlen : (snapshotText s).length =
      9 + (unsigned s.totalCount.toNat).length + 15 +
        (unsigned s.overwrittenCount.toNat).length + 9 +
        (errorEntryOrNullText s.firstValid s.first).length + 8 +
        (errorEntryOrNullText s.lastValid s.last).length +
        (16 + (unsigned s.recentCount.toNat).length + 11) +
        ((s.recent.toList.take s.recentCount.toNat).zipIdx.flatMap recentText).length + 2 := by
    simp only [snapshotText, List.length_append]
    rfl
  have hcount : (s.recent.toList.take s.recentCount.toNat).length ≤ 10 := by
    rw [List.length_take, Vector.length_toList]
    exact Nat.min_le_right _ _
  have hrecent := length_recentTexts_le (s.recent.toList.take s.recentCount.toNat).zipIdx
  rw [List.length_zipIdx] at hrecent
  have hnumber : (unsigned s.recentCount.toNat).length ≤ 3 :=
    (length_unsigned_le_iff (by decide)).mpr (Nat.lt_trans s.recentCount.toNat_lt (by decide))
  have h1 := length_unsigned_le_ten s.totalCount.toNat_lt
  have h2 := length_unsigned_le_ten s.overwrittenCount.toNat_lt
  have h3 := length_errorEntryOrNullText_le s.firstValid s.first
  have h4 := length_errorEntryOrNullText_le s.lastValid s.last
  have hsize : FsBuffer.debugData.size - FsCustom.headerSize true = 4096 := by decide
  omega

theorem buildErrorRecorderJson_eq {bufferSize : Nat} (s : ErrorRecorderSnapshot)
    (h : (snapshotText s).length < bufferSize) :
    buildErrorRecorderJson bufferSize s = some (snapshotText s) := by
  unfold snapshotText at h
  simp only [List.length_append] at h
  unfold buildErrorRecorderJson
  simp only [Option.bind_eq_bind]
  rw [appendJson_of_lt (by simp only [List.length_append, List.length_nil]; omega),
    Option.bind_some,
    appendJson_of_lt (by simp only [List.length_append, List.length_nil]; omega),
    Option.bind_some,
    appendJson_of_lt (by simp only [List.length_append, List.length_nil]; omega),
    Option.bind_some,
    appendJson_of_lt (by simp only [List.length_append, List.length_nil]; omega),
    Option.bind_some,
    appendJson_of_lt (by simp only [List.length_append, List.length_nil]; omega),
    Option.bind_some,
    appendAll_of_lt (by simp only [List.length_append, List.length_nil]; omega),
    Option.bind_some,
    appendJson_of_lt (by simp only [List.length_append, List.length_nil]; omega),
    List.nil_append]
  rfl

def errorsTree (l : List ErrorContext) : Json :=
  .object [(ascii "total", .ofNat l.length),
    (ascii "overwritten", .ofNat (l.length - errorRecorderRecentCount)),
    (ascii "first", (l.head?.map fun c => entryTree ⟨1, c⟩).getD .null),
    (ascii "last", (l.getLast?.map fun c => entryTree ⟨.ofNat l.length, c⟩).getD .null),
    (ascii "recent_count", .ofNat (min l.length errorRecorderRecentCount)),
    (ascii "recent", .array
      (((ErrorRecorder.entries l).drop (l.length - errorRecorderRecentCount)).map entryTree))]

theorem snapshotTree_eq {r : ErrorRecorder} {l : List ErrorContext} (h : r.Keeps l) :
    snapshotTree r.getSnapshot = errorsTree l := by
  have hr := h.reports
  have hdrop : l.length - r.recentCount.toNat = l.length - errorRecorderRecentCount := by
    have hcount := h.count
    omega
  have hrecent := h.take_recent
  rw [hdrop] at hrecent
  have hcount : r.getSnapshot.recentCount = r.recentCount := rfl
  have hoverwritten := hr.overwritten
  rw [hcount, hdrop] at hoverwritten
  have hfirst : entryOrNullTree r.getSnapshot.firstValid r.getSnapshot.first =
      (l.head?.map fun c => entryTree ⟨1, c⟩).getD .null := by
    rw [entryOrNullTree, hr.valid.1]
    cases l with
    | nil => rfl
    | cons c cs =>
      rw [hr.first c rfl]
      rfl
  have hlast : entryOrNullTree r.getSnapshot.lastValid r.getSnapshot.last =
      (l.getLast?.map fun c => entryTree ⟨.ofNat l.length, c⟩).getD .null := by
    rw [entryOrNullTree, hr.valid.2, hr.valid.1]
    cases hl : l.getLast? with
    | none =>
      rw [List.getLast?_eq_none_iff.mp hl]
      rfl
    | some c =>
      have hne : ¬l = [] := by
        rintro rfl
        cases hl
      rw [if_neg hne, hr.last c hl]
      rfl
  rw [snapshotTree, hr.total, hoverwritten, hfirst, hlast, hr.count, ← hr.count, hcount, hrecent,
    h.count]
  rfl

theorem errorsTree_lexical {l : List ErrorContext} (h : ∀ c ∈ l, Plain c) :
    (errorsTree l).Lexical := by
  have hfirst : ((l.head?.map fun c => entryTree ⟨1, c⟩).getD .null).Lexical := by
    cases hl : l.head? with
    | none => trivial
    | some c => exact entryTree_lexical (h c (List.mem_of_head? hl))
  have hlast : ((l.getLast?.map fun c => entryTree ⟨.ofNat l.length, c⟩).getD .null).Lexical := by
    cases hl : l.getLast? with
    | none => trivial
    | some c => exact entryTree_lexical (h c (List.mem_of_getLast? hl))
  have hentries : ∀ e ∈ (ErrorRecorder.entries l).drop (l.length - errorRecorderRecentCount),
      Plain e.context := by
    intro e he
    have hmem := List.mem_map_of_mem (f := ErrorRecorderEntry.context) (List.mem_of_mem_drop he)
    rw [ErrorRecorder.map_context_entries] at hmem
    exact h e.context hmem
  have hrecent (es : List ErrorRecorderEntry) (hes : ∀ e ∈ es, Plain e.context) :
      Json.LexicalElements (es.map entryTree) := by
    induction es with
    | nil => trivial
    | cons e es ih =>
      exact ⟨entryTree_lexical (hes e List.mem_cons_self),
        ih fun e' he' => hes e' (List.mem_cons_of_mem _ he')⟩
  exact ⟨Json.scanString_key rfl, Json.lexical_ofNat _, Json.scanString_key rfl,
    Json.lexical_ofNat _, Json.scanString_key rfl, hfirst, Json.scanString_key rfl, hlast,
    Json.scanString_key rfl, Json.lexical_ofNat _, Json.scanString_key rfl, hrecent _ hentries,
    trivial⟩

/-- After any calls of the recorder the page is served, and it tells of them what it should. -/
theorem errors_page (calls : List (Option ErrorContext))
    (hlt : (calls.filterMap id).length < UInt32.size)
    (hplain : ∀ c ∈ calls.filterMap id, Plain c) :
    ∃ payload, renderErrors (FsBuffer.debugData.size - FsCustom.headerSize true)
        (ErrorRecorder.clear.recordAll calls).getSnapshot = some payload ∧
      Json.parse payload = some (errorsTree (calls.filterMap id)) := by
  have hkeeps := ErrorRecorder.keeps_clear.recordAll calls (by simpa using hlt)
  rw [List.nil_append] at hkeeps
  refine ⟨snapshotText (ErrorRecorder.clear.recordAll calls).getSnapshot, ?_, ?_⟩
  · rw [renderErrors, buildErrorRecorderJson_eq _ (length_snapshotText_lt _)]
  · rw [snapshotText_eq, snapshotTree_eq hkeeps]
    exact Json.parse_compact_self (errorsTree_lexical hplain)

def readError : ErrorContext where
  id := 3
  code := 9
  arg0 := 100
  arg1 := 1
  line := 1120
  file := .ofFn fun i => (ascii "Sd.c").getD i 0
  function := .ofFn fun i => (ascii "SD_Spi_readMultiBlock").getD i 0

theorem errors_page_twelve :
    ∃ payload, renderErrors (FsBuffer.debugData.size - FsCustom.headerSize true)
        (ErrorRecorder.clear.recordAll (List.replicate 12 (some readError))).getSnapshot =
          some payload ∧
      (Json.parse payload).bind (Json.find [ascii "overwritten"]) = some (.number (ascii "2")) := by
  have hplain : Plain readError := ⟨by decide +kernel, by decide +kernel⟩
  obtain ⟨payload, hpayload, hparse⟩ := errors_page (List.replicate 12 (some readError)) (by decide)
    (fun c hc => by
      obtain rfl := List.eq_of_mem_replicate (n := 12) hc
      exact hplain)
  exact ⟨payload, hpayload, hparse ▸ rfl⟩

end CanSniffer.Web
