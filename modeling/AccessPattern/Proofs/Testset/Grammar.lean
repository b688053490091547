import AccessPattern.Proofs.Checks
import AccessPattern.Proofs.Except
import AccessPattern.Proofs.Text.Bytes
import AccessPattern.Proofs.Text.Decimal
import AccessPattern.Proofs.Text.Trim
import AccessPattern.Testset

/-!
# The grammar of testsets

A testset is read line by line, and each line alone holds an offset, holds nothing or is complained
about. So the lines say whether a testset is read and as which offsets, and if it is not, the first
line that is complained about says what is reported.
-/

namespace AccessPattern.Testset

/-- Bytes split into lines: a newline ends each of them, and the last may do without. -/
inductive SplitInto : Bytes → List Bytes → Prop where
  | nil : SplitInto [] []
  | last {line : Bytes} (hline : newline ∉ line) (hne : line ≠ []) : SplitInto line [line]
  | cons {line rest : Bytes} {rows : List Bytes} (hline : newline ∉ line)
    (hrest : SplitInto rest rows) : SplitInto (line ++ newline :: rest) (line :: rows)

/-- What a line holds: nothing if it is white space only, else the offset that is written between
white space. -/
inductive Holds (line : Bytes) : Option UInt64 → Prop where
  | nothing {text : String} (hline : line = Bytes.ofText text)
    (htrim : Text.TrimsTo text.toList []) : Holds line none
  | offset {text : String} {body : List Char} {offset : UInt64} (hline : line = Bytes.ofText text)
    (htrim : Text.TrimsTo text.toList body) (hbody : Text.Denotes body offset.toNat) :
    Holds line (some offset)

/-- What is wrong with a line: it is no text, or what is written between white space is not empty
and denotes no offset. -/
inductive Complaint (source : String) (number : Nat) (line : Bytes) : RequestError → Prop where
  | notText (h : ∀ text, line ≠ Bytes.ofText text) :
    Complaint source number line (.file source .notText)
  | notAnOffset {text : String} {body : List Char} (hline : line = Bytes.ofText text)
    (htrim : Text.TrimsTo text.toList body) (hne : body ≠ [])
    (hbody : ∀ offset : UInt64, ¬Text.Denotes body offset.toNat) :
    Complaint source number line (.offsetLine source number (String.ofList body))

variable {source : String} {number : Nat} {bytes line rest : Bytes} {rows : List Bytes}

/-- Bytes other than newlines belong to the current line. -/
theorem splitLines_append (h : newline ∉ line) (current : Bytes) (done : List Bytes) :
    splitLines current done (line ++ rest) = splitLines (line.reverse ++ current) done rest := by
  induction line generalizing current with
  | nil => rfl
  | cons byte line ih =>
    rw [List.mem_cons, not_or] at h
    rw [List.cons_append, splitLines, if_neg (Ne.symm h.1), ih h.2, List.reverse_cons,
      List.append_assoc, List.singleton_append]

/-- The lines before come first. -/
theorem splitLines_eq_append (current : Bytes) (done : List Bytes) (bytes : Bytes) :
    splitLines current done bytes = done.reverse ++ splitLines current [] bytes := by
  induction bytes generalizing current done with
  | nil =>
    by_cases hcurrent : current = []
    · simp [splitLines, hcurrent]
    · simp [splitLines, hcurrent]
  | cons byte bytes ih =>
    by_cases hbyte : byte = newline
    · rw [splitLines, if_pos hbyte, ih, splitLines, if_pos hbyte, ih [] [current.reverse],
        List.reverse_cons, List.append_assoc]
      rfl
    · rw [splitLines, if_neg hbyte, ih, splitLines, if_neg hbyte]

/-- Bytes without a newline are one line, unless there are none. -/
theorem lines_eq_singleton (h : newline ∉ line) (hne : line ≠ []) : lines line = [line] := by
  rw [lines, ← List.append_nil line, splitLines_append h, List.append_nil, List.append_nil,
    splitLines, if_neg (List.reverse_ne_nil_iff.mpr hne), List.reverse_reverse]
  rfl

/-- Bytes up to a newline are the first line. -/
theorem lines_append_newline (h : newline ∉ line) (rest : Bytes) :
    lines (line ++ newline :: rest) = line :: lines rest := by
  rw [lines, splitLines_append h, splitLines, if_pos rfl, splitLines_eq_append, List.append_nil,
    List.reverse_reverse]
  rfl

/-- Bytes are split into their lines: up to the first newline there is a line, and what comes after
it is shorter. -/
theorem splitInto_lines (bytes : Bytes) : SplitInto bytes (lines bytes) := by
  by_cases hnewline : newline ∈ bytes
  · obtain ⟨line, rest, hbytes, hline⟩ := List.eq_append_cons_of_mem hnewline
    rw [hbytes, lines_append_newline hline]
    exact .cons hline (splitInto_lines rest)
  · by_cases hne : bytes = []
    · rw [hne]
      exact .nil
    · rw [lines_eq_singleton hnewline hne]
      exact .last hnewline hne
termination_by bytes.length
decreasing_by
  rw [hbytes, List.length_append, List.length_cons]
  omega

/-- Bytes are split into their lines only. -/
theorem splitInto_iff : SplitInto bytes rows ↔ lines bytes = rows := by
  constructor
  · intro h
    induction h with
    | nil => rfl
    | last hline hne => exact lines_eq_singleton hline hne
    | cons hline hrest ih => rw [lines_append_newline hline, ih]
  · rintro rfl
    exact splitInto_lines bytes

/-- What a line holds is read from it. -/
theorem readLine_of_holds {value : Option UInt64} (h : Holds line value) :
    readLine source number line = .ok value := by
  cases h with
  | nothing hline htrim =>
    rw [readLine, Bytes.toText?_eq_some_iff.mpr hline]
    simp only [Text.trimsTo_iff.mp htrim]
  | offset hline htrim hbody =>
    have hne : _ ≠ [] := hbody.ne_nil
    rw [readLine, Bytes.toText?_eq_some_iff.mpr hline]
    simp only [Text.trimsTo_iff.mp htrim, Text.word64?_eq_some_iff.mpr hbody]

/-- What is wrong with a line is reported. -/
theorem readLine_of_complaint {error : RequestError} (h : Complaint source number line error) :
    readLine source number line = .error error := by
  cases h with
  | notText h => rw [readLine, Bytes.toText?_eq_none_iff.mpr h]
  | notAnOffset hline htrim hne hbody =>
    rw [readLine, Bytes.toText?_eq_some_iff.mpr hline]
    simp only [Text.trimsTo_iff.mp htrim, Text.word64?_eq_none_iff.mpr hbody]

/-- Every line holds an offset or nothing, or something is wrong with it. -/
theorem exists_holds_or_complaint (source : String) (number : Nat) (line : Bytes) :
    (∃ value, Holds line value) ∨ ∃ error, Complaint source number line error := by
  by_cases htext : ∃ text, line = Bytes.ofText text
  · obtain ⟨text, hline⟩ := htext
    have htrim := Text.trimsTo_trim text.toList
    by_cases hnil : Text.trim text.toList = []
    · rw [hnil] at htrim
      exact .inl ⟨none, .nothing hline htrim⟩
    · by_cases hbody : ∃ offset : UInt64, Text.Denotes (Text.trim text.toList) offset.toNat
      · obtain ⟨offset, hoffset⟩ := hbody
        exact .inl ⟨some offset, .offset hline htrim hoffset⟩
      · exact .inr ⟨_, .notAnOffset hline htrim hnil (not_exists.mp hbody)⟩
  · exact .inr ⟨_, .notText (not_exists.mp htext)⟩

/-- A line is read as what it holds and not otherwise. -/
theorem readLine_eq_ok_iff {value : Option UInt64} :
    readLine source number line = .ok value ↔ Holds line value := by
  refine ⟨fun h => ?_, readLine_of_holds⟩
  rcases exists_holds_or_complaint source number line with ⟨other, hother⟩ | ⟨error, herror⟩
  · rw [readLine_of_holds hother] at h
    exact Except.ok.inj h ▸ hother
  · rw [readLine_of_complaint herror] at h
    contradiction

/-- A line is refused for what is wrong with it and not otherwise. -/
theorem readLine_eq_error_iff {error : RequestError} :
    readLine source number line = .error error ↔ Complaint source number line error := by
  refine ⟨fun h => ?_, readLine_of_complaint⟩
  rcases exists_holds_or_complaint source number line with ⟨value, hvalue⟩ | ⟨other, hother⟩
  · rw [readLine_of_holds hvalue] at h
    contradiction
  · rw [readLine_of_complaint hother] at h
    exact Except.error.inj h ▸ hother

/-- A testset is read when each of its lines holds an offset or nothing. -/
theorem read_eq_ok_iff {offsets : List UInt64} :
    read source bytes = .ok offsets ↔
      ∃ values, List.Forall₂ Holds (lines bytes) values ∧ values.filterMap id = offsets := by
  have hlines (values : List (Option UInt64)) :
      List.Forall₂ (fun entry value => Holds entry.1 value) ((lines bytes).zipIdx 1) values ↔
        List.Forall₂ Holds (lines bytes) values := by
    conv_rhs => rw [← List.zipIdx_map_fst 1 (lines bytes), List.forall₂_map_left_iff]
  unfold read
  rw [bind_eq_ok_iff]
  simp only [mapM_eq_ok_iff, readLine_eq_ok_iff, hlines]
  exact exists_congr fun values => and_congr_right fun _ => ⟨Except.ok.inj, congrArg _⟩

/-- A testset is refused for the first of its lines with which something is wrong. Numbers begin at
one, so the number of a line is one more than the lines before it. -/
theorem read_eq_error_iff {error : RequestError} :
    read source bytes = .error error ↔
      ∃ before line after, lines bytes = before ++ line :: after ∧
        (∀ earlier ∈ before, ∃ value, Holds earlier value) ∧
        Complaint source (before.length + 1) line error := by
  have hpure (values : List (Option UInt64)) :
      failure? (pure (values.filterMap id) : Except RequestError (List UInt64)) = none := rfl
  have hearlier (before : List Bytes) (start : Nat) :
      (∀ earlier ∈ before.zipIdx start, ∃ value, Holds earlier.1 value) ↔
        ∀ earlier ∈ before, ∃ value, Holds earlier value := by
    conv_rhs => rw [← List.zipIdx_map_fst start before, List.forall_mem_map]
  unfold read
  rw [← failure?_eq_some_iff, failure?_bind hpure, Option.or_none, failure?_eq_some_iff,
    mapM_eq_error_iff]
  simp only [readLine_eq_ok_iff, readLine_eq_error_iff]
  constructor
  · rintro ⟨before, ⟨line, number⟩, after, hsplit, hbefore, hcomplaint⟩
    obtain ⟨front, back, hlines, rfl, hback⟩ := List.zipIdx_eq_append_iff.mp hsplit
    obtain ⟨line, rest, rfl, hline, rfl⟩ := List.zipIdx_eq_cons_iff.mp hback.symm
    obtain ⟨rfl, rfl⟩ := Prod.mk.inj hline
    rw [Nat.add_comm] at hcomplaint
    exact ⟨front, _, rest, hlines, (hearlier front 1).mp hbefore, hcomplaint⟩
  · rintro ⟨before, line, after, hlines, hbefore, hcomplaint⟩
    refine ⟨before.zipIdx 1, (line, before.length + 1), after.zipIdx (before.length + 2), ?_,
      (hearlier before 1).mpr hbefore, hcomplaint⟩
    rw [hlines, List.zipIdx_append, List.zipIdx_cons, Nat.add_comm 1]

/-- A testset is split into lines in one way, and the lines decide. The offsets are read if every
line is white space or an offset between white space, and they are those of the lines in order.
Otherwise the first line that is neither is reported, as one that is no text or under its number,
which counts all lines, and with what is written on it. -/
theorem testset_read_iff_lines_hold (source : String) (bytes : Bytes) :
    (∀ rows, SplitInto bytes rows ↔ lines bytes = rows) ∧
      (∀ offsets, read source bytes = .ok offsets ↔
        ∃ values, List.Forall₂ Holds (lines bytes) values ∧ values.filterMap id = offsets) ∧
      (∀ error, read source bytes = .error error ↔
        ∃ before line after, lines bytes = before ++ line :: after ∧
          (∀ earlier ∈ before, ∃ value, Holds earlier value) ∧
          Complaint source (before.length + 1) line error) ∧
      (RequestError.file source .notText).message =
        s!"testset IO failed for {source}: " ++ "stream did not contain valid UTF-8" ∧
      ∀ number text, (RequestError.offsetLine source number text).message =
        "invalid configuration: " ++ s!"{source} line {number}: '{text}' is not a byte offset" :=
  ⟨fun _ => splitInto_iff, fun _ => read_eq_ok_iff, fun _ => read_eq_error_iff, rfl,
    fun _ _ => rfl⟩

/-- Of a line that is no offset and a later one that is no text the first is reported, under a
number that counts the blank line before it too. -/
theorem testset_read_iff_lines_hold_first_of_two :
    read "testset" (Bytes.ofText " +007\r\n\n0x8\n" ++ [0xff]) =
      .error (.offsetLine "testset" 3 "0x8") := by
  have hlines : lines (Bytes.ofText " +007\r\n\n0x8\n" ++ [0xff]) =
      [Bytes.ofText " +007\r", Bytes.ofText ""] ++ Bytes.ofText "0x8" :: [[0xff]] := by
    decide
  have hseven : Holds (Bytes.ofText " +007\r") (some 7) :=
    .offset rfl (Text.trimsTo_iff.mpr rfl)
      (.signed (by decide) : Text.Denotes "+007".toList 7)
  have hblank : Holds (Bytes.ofText "") none :=
    .nothing rfl (Text.trimsTo_iff.mpr rfl)
  have hbad : ∀ offset : UInt64, ¬Text.Denotes "0x8".toList offset.toNat :=
    Text.word64?_eq_none_iff.mp (by decide)
  refine ((testset_read_iff_lines_hold "testset" _).2.2.1 _).mpr ⟨_, _, _, hlines, ?_, ?_⟩
  · simp only [List.forall_mem_cons]
    exact ⟨⟨_, hseven⟩, ⟨_, hblank⟩, nofun⟩
  · exact .notAnOffset rfl (Text.trimsTo_iff.mpr rfl) (by decide) hbad

end AccessPattern.Testset
