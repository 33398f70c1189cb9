import Stubwright.CommandLine.Run
import Stubwright.Proofs.Text.Pieces
import Stubwright.Proofs.Text.Trimming

namespace Stubwright

open Text

namespace ClassPath

variable {entry : String} {entries texts others : List String}

structure IsEntry (entry : String) : Prop where
  filled : entry ≠ ""
  whole : separator ∉ entry.toList
  trimmed : IsTrimmed entry.toList

theorem separator_not_mem_of_blank {text : String} (blank : ∀ c ∈ text.toList, isBlank c = true) :
    separator ∉ text.toList := fun inside => absurd (blank separator inside) (by decide)

theorem mem_entriesOf {raw : String} :
    entry ∈ entriesOf raw ↔
      ∃ piece ∈ cut separator raw.toList, trim piece ≠ [] ∧ String.ofList (trim piece) = entry := by
  simp [entriesOf, and_assoc]

theorem isEntry_of_mem {raw : String} (member : entry ∈ entriesOf raw) : IsEntry entry := by
  obtain ⟨piece, cutOut, filled, rfl⟩ := mem_entriesOf.mp member
  refine ⟨by simpa using filled, ?_, ?_⟩
  · rw [String.toList_ofList]
    exact fun inside => not_mem_of_mem_cut cutOut (mem_of_mem_trim inside)
  · rw [String.toList_ofList]
    exact isTrimmed_trim piece

theorem IsEntry.entriesOf_padded (single : IsEntry entry) {front back : String}
    (blank : ∀ c ∈ front.toList, isBlank c = true)
    (blankToo : ∀ c ∈ back.toList, isBlank c = true) :
    entriesOf (front ++ entry ++ back) = [entry] := by
  have whole : separator ∉ front.toList ++ entry.toList ++ back.toList := by
    simp [separator_not_mem_of_blank blank, single.whole, separator_not_mem_of_blank blankToo]
  have filled : entry.toList ≠ [] := by simpa using single.filled
  rw [entriesOf, String.toList_append, String.toList_append, cut_of_not_mem whole,
    List.map_singleton, trim_padded blank single.trimmed filled blankToo,
    List.filter_cons_of_pos (by simpa using filled), List.filter_nil, List.map_singleton,
    String.ofList_toList]

theorem IsEntry.entriesOf_eq (single : IsEntry entry) : entriesOf entry = [entry] := by
  have bare : entriesOf ("" ++ entry ++ "") = [entry] := single.entriesOf_padded nofun nofun
  rwa [String.empty_append, String.append_empty] at bare

theorem entriesOf_of_blank {text : String} (blank : ∀ c ∈ text.toList, isBlank c = true) :
    entriesOf text = [] := by
  rw [entriesOf, cut_of_not_mem (separator_not_mem_of_blank blank), List.map_singleton,
    trim_of_blank blank]
  rfl

theorem flatMap_entriesOf (single : ∀ entry ∈ entries, IsEntry entry) :
    entries.flatMap entriesOf = entries := by
  calc
    entries.flatMap entriesOf = entries.flatMap ([·]) :=
      List.flatMap_congr fun entry listed => (single entry listed).entriesOf_eq
    _ = entries := List.flatMap_singleton' entries

theorem entriesOf_append (left right : String) :
    entriesOf (left ++ String.singleton separator ++ right) =
      entriesOf left ++ entriesOf right := by
  have spelled : (left ++ String.singleton separator ++ right).toList =
      left.toList ++ separator :: right.toList := by simp
  rw [entriesOf, spelled, cut_append_separator, List.map_append, List.filter_append,
    List.map_append]
  rfl

theorem entriesOf_toText (texts : List String) :
    entriesOf (toText ⟨texts⟩) = texts.flatMap entriesOf := by
  induction texts with
  | nil => rfl
  | cons text more ih =>
      cases more with
      | nil => rw [toText, String.intercalate_singleton, List.flatMap_singleton]
      | cons next more =>
          rw [toText, String.intercalate_cons_cons, entriesOf_append, List.flatMap_cons, ← ih]
          rfl

theorem isEntry_of_ofTexts (raw : List String) :
    ∀ entry ∈ (ofTexts raw).entries, IsEntry entry := by
  intro entry member
  obtain ⟨text, -, inText⟩ := List.mem_flatMap.mp member
  exact isEntry_of_mem inText

theorem ofTexts_append (raw more : List String) :
    ofTexts (raw ++ more) = (ofTexts raw).append (ofTexts more) := by
  rw [ofTexts, List.flatMap_append]
  rfl

theorem ofTexts_toText (raw : List String) : ofTexts [toText ⟨raw⟩] = ofTexts raw := by
  rw [ofTexts, List.flatMap_singleton, entriesOf_toText, ofTexts]

theorem ofTexts_joined (front raw back : List String) :
    ofTexts (front ++ [toText ⟨raw⟩] ++ back) = ofTexts (front ++ raw ++ back) := by
  rw [ofTexts_append, ofTexts_append, ofTexts_toText, ← ofTexts_append, ← ofTexts_append]

theorem ofTexts_entries (raw : List String) : ofTexts (ofTexts raw).entries = ofTexts raw := by
  rw [ofTexts, flatMap_entriesOf (isEntry_of_ofTexts raw)]

/-- Entries without separators are the pieces of the text they are joined to. -/
theorem cut_toText (whole : ∀ entry ∈ entries, separator ∉ entry.toList) (filled : entries ≠ []) :
    (cut separator (toText ⟨entries⟩).toList).map String.ofList = entries := by
  have clean : ∀ piece ∈ entries.map String.toList, separator ∉ piece := by simpa using whole
  rw [toText, String.toList_intercalate, ← join_eq_intercalate, String.toList_singleton,
    cut_join clean (by simpa using filled), List.map_map]
  simp

def passed : List String → List String
  | ["-cp", text] => (cut separator text.toList).map String.ofList
  | _ => []

theorem classPathArguments_eq (whole : ∀ entry ∈ entries, separator ∉ entry.toList) :
    BuildSettings.classPathArguments entries =
      .ok (if entries = [] then [] else ["-cp", toText ⟨entries⟩]) := by
  have clean : entries.any (·.toList.contains ':') = false := by
    simpa [separator] using whole
  cases entries with
  | nil => rfl
  | cons first others =>
      rw [BuildSettings.classPathArguments, clean, if_neg (List.cons_ne_nil first others)]
      rfl

theorem passed_classPathArguments (whole : ∀ entry ∈ entries, separator ∉ entry.toList) :
    (BuildSettings.classPathArguments entries).map passed = .ok entries := by
  rw [classPathArguments_eq whole]
  by_cases empty : entries = []
  · rw [if_pos empty, empty]
    rfl
  · rw [if_neg empty]
    exact congrArg Except.ok (cut_toText whole empty)

/-- A run looks at the class path of its command line only for the entries. -/
theorem run_congr (same : ofTexts texts = ofTexts others) (host : Host)
    (arguments : GenerateArguments) (settings : Settings) :
    { arguments with classPath := texts }.run host settings =
      { arguments with classPath := others }.run host settings := by
  have user : GenerateArguments.userClassPath { arguments with classPath := texts } settings =
      GenerateArguments.userClassPath { arguments with classPath := others } settings := by
    rw [GenerateArguments.userClassPath, GenerateArguments.userClassPath, same]
  have sources :
      GenerateArguments.sources host.runner { arguments with classPath := texts } settings =
        GenerateArguments.sources host.runner { arguments with classPath := others } settings := by
    rw [GenerateArguments.sources, GenerateArguments.sources, user]
  rw [GenerateArguments.run, GenerateArguments.run, sources, user]
  rfl

structure SplitsAndJoins (raw : List String) : Prop where
  clean : ∀ entry ∈ (ofTexts raw).entries, IsEntry entry
  append : ∀ more, ofTexts (raw ++ more) = (ofTexts raw).append (ofTexts more)
  joined : ∀ front back,
    ofTexts (front ++ [toText ⟨raw⟩] ++ back) = ofTexts (front ++ raw ++ back)
  again : ofTexts (ofTexts raw).entries = ofTexts raw
  rejoined : ofTexts [(ofTexts raw).toText] = ofTexts raw
  argument : BuildSettings.classPathArguments (ofTexts raw).entries =
    .ok (if (ofTexts raw).entries = [] then [] else ["-cp", (ofTexts raw).toText])
  handedOver : ∀ own more, (∀ entry ∈ own ++ more, separator ∉ entry.toList) →
    (BuildSettings.classPathArguments (own ++ (ofTexts raw).entries ++ more)).map passed =
      .ok (own ++ (ofTexts raw).entries ++ more)

theorem splitsAndJoins (raw : List String) : SplitsAndJoins raw where
  clean := isEntry_of_ofTexts raw
  append := ofTexts_append raw
  joined front := ofTexts_joined front raw
  again := ofTexts_entries raw
  rejoined := (ofTexts_toText (ofTexts raw).entries).trans (ofTexts_entries raw)
  argument := classPathArguments_eq fun entry member => (isEntry_of_ofTexts raw entry member).whole
  handedOver own more whole := by
    refine passed_classPathArguments fun entry member => ?_
    rcases List.mem_append.mp member with inFront | inMore
    · rcases List.mem_append.mp inFront with inOwn | found
      · exact whole entry (List.mem_append_left more inOwn)
      · exact (isEntry_of_ofTexts raw entry found).whole
    · exact whole entry (List.mem_append_right own inMore)

/-- Splitting the class path of a command line finds every entry and nothing else, however the
entries are spread over texts, and it finds the same when they are joined and split again. -/
theorem texts_split_and_join :
    (∀ raw, SplitsAndJoins raw) ∧
      (∀ front entry back : String, IsEntry entry → (∀ c ∈ front.toList, isBlank c = true) →
        (∀ c ∈ back.toList, isBlank c = true) → ofTexts [front ++ entry ++ back] = ⟨[entry]⟩) ∧
      (∀ text : String, (∀ c ∈ text.toList, isBlank c = true) → ofTexts [text] = ⟨[]⟩) ∧
      ∀ (host : Host) (arguments : GenerateArguments) (settings : Settings)
        (front raw back : List String),
        { arguments with classPath := front ++ [toText ⟨raw⟩] ++ back }.run host settings =
          { arguments with classPath := front ++ raw ++ back }.run host settings := by
  refine ⟨splitsAndJoins, ?_, ?_, ?_⟩
  · intro front entry back single blank blankToo
    rw [ofTexts, List.flatMap_singleton, single.entriesOf_padded blank blankToo]
  · intro text blank
    rw [ofTexts, List.flatMap_singleton, entriesOf_of_blank blank]
  · intro host arguments settings front raw back
    exact run_congr (ofTexts_joined front raw back) host arguments settings

/-- A name with a blank in it, between empty pieces and blanks. -/
theorem texts_split_and_join_blanks :
    IsEntry "my lib" ∧ ofTexts [" " ++ "my lib" ++ "\t"] = ⟨["my lib"]⟩ ∧ ofTexts [" \n"] = ⟨[]⟩ ∧
      (BuildSettings.classPathArguments
        (["own"] ++ (ofTexts [": my lib\t::b.jar"]).entries ++ [" more "])).map passed =
          .ok ["own", "my lib", "b.jar", " more "] := by
  obtain ⟨laws, padded, blank, -⟩ := texts_split_and_join
  have entries : (ofTexts [": my lib\t::b.jar"]).entries = ["my lib", "b.jar"] := by decide +kernel
  have single : IsEntry "my lib" := (laws _).clean "my lib" (by rw [entries]; decide)
  have handed := (laws [": my lib\t::b.jar"]).handedOver ["own"] [" more "] (by decide)
  rw [entries] at handed ⊢
  refine ⟨single, padded _ _ _ single ?_ ?_, blank _ ?_, handed⟩
  all_goals simp [isBlank, blankRanges]

end ClassPath

end Stubwright
