import Stubwright.Proofs.Text.Lines
import Stubwright.Toolchain.Version

namespace Stubwright.Toolchain

open Text

variable {line token rest digits text report : List Char} {number version : Nat}

def Quotes (line token : List Char) : Prop :=
  ∃ front back, line = front ++ '"' :: (token ++ '"' :: back) ∧ '"' ∉ front ∧ '"' ∉ token

theorem bne_of_not_mem {c : Char} (absent : c ∉ text) : ∀ d ∈ text, (d != c) = true := by
  intro d member
  rw [bne_iff_ne]
  rintro rfl
  exact absent member

theorem quoted?_of_quotes (quotes : Quotes line token) :
    quoted? line = some token ∧ 2 ≤ line.count '"' := by
  obtain ⟨front, back, rfl, before, inside⟩ := quotes
  constructor
  · have opened : (front ++ '"' :: (token ++ '"' :: back)).dropWhile (· != '"') =
        '"' :: (token ++ '"' :: back) := by
      rw [List.dropWhile_append_of_pos (bne_of_not_mem before)]
      rfl
    have closed : (token ++ '"' :: back).dropWhile (· != '"') = '"' :: back := by
      rw [List.dropWhile_append_of_pos (bne_of_not_mem inside)]
      rfl
    have between : (token ++ '"' :: back).takeWhile (· != '"') = token := by
      rw [List.takeWhile_append_of_pos (bne_of_not_mem inside)]
      exact List.append_nil token
    simp only [quoted?, opened, closed, between]
  · rw [List.count_append, List.count_cons_self, List.count_append, List.count_cons_self]
    omega

theorem quoted?_of_count (few : line.count '"' < 2) : quoted? line = none := by
  rw [quoted?]
  cases opened : line.dropWhile (· != '"') with
  | nil => rfl
  | cons c rest =>
      dsimp only
      cases closed : rest.dropWhile (· != '"') with
      | nil => rfl
      | cons d back =>
          -- Both parts that were not dropped begin with a quote.
          have first := List.head?_dropWhile_not (· != '"') line
          have second := List.head?_dropWhile_not (· != '"') rest
          rw [opened] at first
          rw [closed] at second
          obtain rfl : c = '"' := by simpa using first
          obtain rfl : d = '"' := by simpa using second
          have inRest : (rest.dropWhile (· != '"')).count '"' ≤ rest.count '"' :=
            (List.dropWhile_sublist _).count_le _
          have inLine : (line.dropWhile (· != '"')).count '"' ≤ line.count '"' :=
            (List.dropWhile_sublist _).count_le _
          rw [closed, List.count_cons_self] at inRest
          rw [opened, List.count_cons_self] at inLine
          omega

theorem quotes_of_count (many : ¬ line.count '"' < 2) : ∃ token, Quotes line token := by
  have first : '"' ∈ line := List.count_pos_iff.mp (by omega)
  obtain ⟨front, rest, rfl, before⟩ := List.eq_append_cons_of_mem first
  have second : '"' ∈ rest := by
    rw [List.count_append, List.count_cons_self, List.count_eq_zero_of_not_mem before] at many
    exact List.count_pos_iff.mp (by omega)
  obtain ⟨token, back, rfl, inside⟩ := List.eq_append_cons_of_mem second
  exact ⟨token, front, back, rfl, before, inside⟩

theorem quoted?_eq_none : quoted? line = none ↔ line.count '"' < 2 := by
  refine ⟨fun nothing => ?_, quoted?_of_count⟩
  by_contra many
  obtain ⟨token, quotes⟩ := quotes_of_count many
  rw [(quoted?_of_quotes quotes).1] at nothing
  cases nothing

theorem quoted?_eq_some : quoted? line = some token ↔ Quotes line token := by
  refine ⟨fun found => ?_, fun quotes => (quoted?_of_quotes quotes).1⟩
  have many : ¬ line.count '"' < 2 := by
    intro few
    rw [quoted?_of_count few] at found
    cases found
  obtain ⟨other, quotes⟩ := quotes_of_count many
  rw [(quoted?_of_quotes quotes).1, Option.some.injEq] at found
  rwa [← found]

/-- A report with a text in quotes on the first of its lines that has two of them. -/
def Tells (report token : List Char) : Prop :=
  ∃ earlier line later, lines report = earlier ++ line :: later ∧
    (∀ other ∈ earlier, other.count '"' < 2) ∧ Quotes line token

theorem versionToken?_eq_some : versionToken? report = some token ↔ Tells report token := by
  rw [versionToken?, List.findSome?_eq_some_iff]
  constructor
  · rintro ⟨earlier, line, later, split, found, silent⟩
    exact ⟨earlier, line, later, split, fun other member => quoted?_eq_none.mp (silent other member),
      quoted?_eq_some.mp found⟩
  · rintro ⟨earlier, line, later, split, few, quotes⟩
    exact ⟨earlier, line, later, split, quoted?_eq_some.mpr quotes,
      fun other member => quoted?_eq_none.mpr (few other member)⟩

theorem versionToken?_eq_none :
    versionToken? report = none ↔ ∀ line ∈ lines report, line.count '"' < 2 := by
  rw [versionToken?, List.findSome?_eq_none_iff]
  exact forall₂_congr fun _ _ => quoted?_eq_none

theorem le_ofDigitChars (digits : List Char) (start : Nat) :
    start ≤ Nat.ofDigitChars 10 digits start := by
  induction digits generalizing start with
  | nil => exact Nat.le_refl start
  | cons digit others ih =>
      rw [Nat.ofDigitChars_cons]
      exact Nat.le_trans (by omega) (ih _)

/-- A number that gets too great on the way stays too great. -/
theorem foldlM_withDigit? (digits : List Char) {start : Nat} (fits : start ≤ greatestVersion) :
    digits.foldlM withDigit? start =
      if Nat.ofDigitChars 10 digits start ≤ greatestVersion
        then some (Nat.ofDigitChars 10 digits start) else none := by
  induction digits generalizing start with
  | nil => exact (if_pos fits).symm
  | cons digit others ih =>
      rw [List.foldlM_cons, withDigit?, Nat.ofDigitChars_cons, Nat.mul_comm]
      by_cases small : 10 * start + (digit.toNat - '0'.toNat) ≤ greatestVersion
      · rw [if_pos small]
        exact ih small
      · have further := le_ofDigitChars others (10 * start + (digit.toNat - '0'.toNat))
        rw [if_neg small, if_neg (by omega)]
        rfl

theorem number?_eq (digits : List Char) :
    number? digits =
      if digits ≠ [] ∧ Nat.ofDigitChars 10 digits 0 ≤ greatestVersion
        then some (Nat.ofDigitChars 10 digits 0) else none := by
  rw [number?, foldlM_withDigit? digits (Nat.zero_le _)]
  cases digits with
  | nil => rfl
  | cons digit others => simp

theorem number?_eq_some : number? digits = some number ↔
    digits ≠ [] ∧ Nat.ofDigitChars 10 digits 0 = number ∧ number ≤ greatestVersion := by
  rw [number?_eq, Option.ite_none_right_eq_some, Option.some.injEq]
  constructor
  · rintro ⟨⟨filled, fits⟩, rfl⟩
    exact ⟨filled, rfl, fits⟩
  · rintro ⟨filled, rfl, fits⟩
    exact ⟨⟨filled, fits⟩, rfl⟩

theorem number?_eq_none : number? digits = none ↔
    digits = [] ∨ greatestVersion < Nat.ofDigitChars 10 digits 0 := by
  rw [number?_eq, ite_eq_right_iff]
  simp only [reduceCtorEq, imp_false, not_and, not_le]
  exact ⟨fun great => or_iff_not_imp_left.mpr great, fun great => or_iff_not_imp_left.mp great⟩

structure LeadingDigits (digits text : List Char) : Prop where
  front : digits <+: text
  digit : ∀ c ∈ digits, c.isDigit = true
  longest : ∀ run, run <+: text → (∀ c ∈ run, c.isDigit = true) → run.length ≤ digits.length

theorem leadingDigits_takeWhile (text : List Char) :
    LeadingDigits (text.takeWhile Char.isDigit) text where
  front := List.takeWhile_prefix _
  digit := fun _ member => List.mem_takeWhile_imp member
  longest := by
    rintro run ⟨tail, rfl⟩ digits
    rw [List.takeWhile_append_of_pos digits, List.length_append]
    omega

theorem LeadingDigits.eq_takeWhile (leading : LeadingDigits digits text) :
    digits = text.takeWhile Char.isDigit := by
  have scanned := leadingDigits_takeWhile text
  have shorter := leading.longest _ scanned.front scanned.digit
  have longer := scanned.longest _ leading.front leading.digit
  have front := List.prefix_of_prefix_length_le leading.front scanned.front longer
  exact front.eq_of_length (by omega)

/-- What of a token counts: everything, but for a leading `1.`. -/
def Significant (token rest : List Char) : Prop :=
  token = '1' :: '.' :: rest ∨ ¬ ['1', '.'] <+: token ∧ rest = token

theorem exists_significant (token : List Char) : ∃ rest, Significant token rest := by
  by_cases old : ['1', '.'] <+: token
  · obtain ⟨rest, rfl⟩ := old
    exact ⟨rest, .inl rfl⟩
  · exact ⟨token, .inr ⟨old, rfl⟩⟩

/-- No digit separates, so the number ends no earlier than its digits. -/
theorem takeWhile_digits_separators (text : List Char) :
    (text.takeWhile (!separators.contains ·)).takeWhile Char.isDigit =
      text.takeWhile Char.isDigit := by
  rw [List.takeWhile_takeWhile]
  congr 1
  funext c
  have apart : c.isDigit = true → (!separators.contains c) = true := by
    intro digit
    rw [Bool.not_eq_true', ← Bool.not_eq_true, List.contains_iff_mem]
    intro member
    simp only [separators, List.mem_cons, List.not_mem_nil, or_false] at member
    rcases member with rfl | rfl | rfl <;> cases digit
  rw [Bool.eq_iff_iff, decide_eq_true_iff]
  exact and_iff_left_of_imp apart

theorem majorOf?_eq (significant : Significant token rest) :
    majorOf? token = number? (rest.takeWhile Char.isDigit) := by
  rcases significant with rfl | ⟨modern, rfl⟩
  · rw [majorOf?, takeWhile_digits_separators]
  · rw [majorOf?]
    rintro rest rfl
    exact modern (List.prefix_append ['1', '.'] rest)

def answer (number : Option Nat) : Except VersionFault Nat :=
  number.elim (.error .badToken) .ok

theorem answer_eq_ok {number : Option Nat} : answer number = .ok version ↔ number = some version := by
  cases number <;> simp [answer]

theorem answer_eq_badToken {number : Option Nat} :
    answer number = .error .badToken ↔ number = none := by
  cases number <;> simp [answer]

theorem answer_ne_noToken (number : Option Nat) : answer number ≠ .error .noToken := by
  cases number <;> simp [answer]

theorem reportedVersion_of_tells (tells : Tells report token) (significant : Significant token rest)
    (leading : LeadingDigits digits rest) :
    reportedVersion report = answer (number? digits) := by
  rw [reportedVersion, versionToken?_eq_some.mpr tells, leading.eq_takeWhile,
    ← majorOf?_eq significant]
  cases major : majorOf? token <;> simp [major, answer]

theorem reportedVersion_cases (report : List Char) :
    (∀ line ∈ lines report, line.count '"' < 2) ∧ reportedVersion report = .error .noToken ∨
      ∃ token rest digits, Tells report token ∧ Significant token rest ∧
        LeadingDigits digits rest ∧ reportedVersion report = answer (number? digits) := by
  cases found : versionToken? report with
  | none => exact .inl ⟨versionToken?_eq_none.mp found, by rw [reportedVersion, found]⟩
  | some token =>
      right
      have tells := versionToken?_eq_some.mp found
      obtain ⟨rest, significant⟩ := exists_significant token
      have leading := leadingDigits_takeWhile rest
      exact ⟨token, rest, _, tells, significant, leading,
        reportedVersion_of_tells tells significant leading⟩

theorem leadingDigits_toDigits {more : List Char}
    (stop : ∀ c, more.head? = some c → c.isDigit = false) (number : Nat) :
    LeadingDigits (Nat.toDigits 10 number) (Nat.toDigits 10 number ++ more) := by
  have digits : ∀ c ∈ Nat.toDigits 10 number, c.isDigit = true :=
    fun _ member => Nat.isDigit_of_mem_toDigits (by decide) (by decide) member
  have whole : (Nat.toDigits 10 number ++ more).takeWhile Char.isDigit = Nat.toDigits 10 number := by
    rw [List.takeWhile_append_of_pos digits]
    cases more with
    | nil => exact List.append_nil _
    | cons c others => rw [List.takeWhile_cons_of_neg (by simp [stop c rfl]), List.append_nil]
  have leading := leadingDigits_takeWhile (Nat.toDigits 10 number ++ more)
  rwa [whole] at leading

theorem not_mem_toDigits {c : Char} (other : c.isDigit = false) (number : Nat) :
    c ∉ Nat.toDigits 10 number := by
  intro member
  rw [Nat.isDigit_of_mem_toDigits (by decide) (by decide) member] at other
  cases other

theorem number?_toDigits (fits : number < Nat.pow 2 32) :
    number? (Nat.toDigits 10 number) = some number :=
  number?_eq_some.mpr ⟨Nat.toDigits_ne_nil, Nat.ofDigitChars_toDigits (by decide) (by decide),
    Nat.le_sub_one_of_lt fits⟩

theorem exists_lines_quotes {front : List Char} (back : List Char) (unbroken : '\n' ∉ front)
    (unbrokenToo : '\n' ∉ token) :
    ∃ last later, lines (front ++ '"' :: (token ++ '"' :: back)) =
      (front ++ '"' :: (token ++ '"' :: last)) :: later := by
  have open_line {last : List Char} (rest : '\n' ∉ last) :
      '\n' ∉ front ++ '"' :: (token ++ '"' :: last) := by
    simp [unbroken, unbrokenToo, rest]
  by_cases feed : '\n' ∈ back
  · obtain ⟨last, later, rfl, rest⟩ := List.eq_append_cons_of_mem feed
    refine ⟨dropCarriageReturn last, lines later, ?_⟩
    have whole : front ++ '"' :: (token ++ '"' :: (last ++ '\n' :: later)) =
        (front ++ '"' :: (token ++ '"' :: last)) ++ '\n' :: later := by simp
    have quote : '"' ≠ '\r' := by decide
    rw [whole, lines_append_feed, cut_of_not_mem (open_line rest), List.map_singleton,
      dropCarriageReturn_append_cons quote, dropCarriageReturn_append_cons quote]
    rfl
  · refine ⟨back, [], ?_⟩
    rw [lines_of_not_mem (open_line feed) (by simp)]

theorem tells_quotes {earlier : List (List Char)} {front : List Char} (back : List Char)
    (whole : ∀ line ∈ earlier, '\n' ∉ line) (few : ∀ line ∈ earlier, line.count '"' < 2)
    (unbroken : '\n' ∉ front) (unbrokenToo : '\n' ∉ token) (plain : '"' ∉ front)
    (plainToo : '"' ∉ token) :
    Tells (unlines earlier ++ (front ++ '"' :: (token ++ '"' :: back))) token := by
  obtain ⟨last, later, split⟩ := exists_lines_quotes back unbroken unbrokenToo
  refine ⟨earlier.map dropCarriageReturn, _, later, by rw [lines_unlines_append whole, split], ?_,
    front, last, rfl, plain, plainToo⟩
  intro line member
  obtain ⟨before, listed, rfl⟩ := List.mem_map.mp member
  rw [count_dropCarriageReturn (by decide)]
  exact few before listed

/-- What a report tells, by its first line with two quotes and the digits there. -/
structure ReadsVersion (report : List Char) : Prop where
  ok : ∀ version, reportedVersion report = .ok version ↔
    ∃ token rest digits, Tells report token ∧ Significant token rest ∧ LeadingDigits digits rest ∧
      digits ≠ [] ∧ Nat.ofDigitChars 10 digits 0 = version ∧ version ≤ Nat.pow 2 32 - 1
  bad : reportedVersion report = .error .badToken ↔
    ∃ token rest digits, Tells report token ∧ Significant token rest ∧ LeadingDigits digits rest ∧
      (digits = [] ∨ Nat.pow 2 32 - 1 < Nat.ofDigitChars 10 digits 0)
  silent : reportedVersion report = .error .noToken ↔ ∀ line ∈ lines report, line.count '"' < 2

theorem readsVersion (report : List Char) : ReadsVersion report where
  ok version := by
    constructor
    · intro read
      rcases reportedVersion_cases report with
        ⟨-, silent⟩ | ⟨token, rest, digits, tells, significant, leading, found⟩
      · rw [silent] at read
        cases read
      · rw [found, answer_eq_ok, number?_eq_some] at read
        exact ⟨token, rest, digits, tells, significant, leading, read⟩
    · rintro ⟨token, rest, digits, tells, significant, leading, spelled⟩
      rw [reportedVersion_of_tells tells significant leading, answer_eq_ok]
      exact number?_eq_some.mpr spelled
  bad := by
    constructor
    · intro read
      rcases reportedVersion_cases report with
        ⟨-, silent⟩ | ⟨token, rest, digits, tells, significant, leading, found⟩
      · rw [silent] at read
        cases read
      · rw [found, answer_eq_badToken, number?_eq_none] at read
        exact ⟨token, rest, digits, tells, significant, leading, read⟩
    · rintro ⟨token, rest, digits, tells, significant, leading, great⟩
      rw [reportedVersion_of_tells tells significant leading, answer_eq_badToken]
      exact number?_eq_none.mpr great
  silent := by
    constructor
    · intro read
      rcases reportedVersion_cases report with ⟨few, -⟩ | ⟨token, rest, digits, -, -, -, found⟩
      · exact few
      · exact absurd (found.symm.trans read) (answer_ne_noToken _)
    · intro few
      rw [reportedVersion, versionToken?_eq_none.mpr few]

/-- The version of a kit is read without getting mixed up with other numbers, wrapped or cut short,
wherever the launcher reports it. -/
theorem versions_are_read :
    (∀ report, ReadsVersion report) ∧
      VersionFault.noToken.message ≠ VersionFault.badToken.message ∧
      ∀ (number : Nat) (earlier : List (List Char)) (front more back : List Char),
        number < Nat.pow 2 32 →
        (∀ line ∈ earlier, '\n' ∉ line ∧ line.count '"' < 2) →
        '\n' ∉ front ∧ '"' ∉ front →
        '\n' ∉ more ∧ '"' ∉ more →
        (∀ c, more.head? = some c → c.isDigit = false) →
          reportedVersion (unlines earlier ++ (front ++ '"' ::
            ('1' :: '.' :: (Nat.toDigits 10 number ++ more) ++ '"' :: back))) = .ok number ∧
          (¬ ['1', '.'] <+: Nat.toDigits 10 number ++ more →
            reportedVersion (unlines earlier ++ (front ++ '"' ::
              (Nat.toDigits 10 number ++ more ++ '"' :: back))) = .ok number) := by
  refine ⟨readsVersion, by decide, ?_⟩
  intro number earlier front more back fits silent plain plainToo stop
  have unbroken : '\n' ∉ Nat.toDigits 10 number ++ more :=
    List.not_mem_append (not_mem_toDigits rfl number) plainToo.1
  have unquoted : '"' ∉ Nat.toDigits 10 number ++ more :=
    List.not_mem_append (not_mem_toDigits rfl number) plainToo.2
  have told {token : List Char} (whole : '\n' ∉ token) (quoted : '"' ∉ token)
      (significant : Significant token (Nat.toDigits 10 number ++ more)) :
      reportedVersion (unlines earlier ++ (front ++ '"' :: (token ++ '"' :: back))) = .ok number := by
    have tells := tells_quotes back (fun line member => (silent line member).1)
      (fun line member => (silent line member).2) plain.1 whole plain.2 quoted
    rw [reportedVersion_of_tells tells significant (leadingDigits_toDigits stop number), answer_eq_ok]
    exact number?_toDigits fits
  refine ⟨told ?_ ?_ (.inl rfl), fun modern => told unbroken unquoted (.inr ⟨modern, rfl⟩)⟩
  · simpa using unbroken
  · simpa using unquoted

theorem versions_are_read_behind_options :
    reportedVersion "Picked up \"options\njava \"1.8.0_362\" \"9\"\n\"11\"".toList = .ok 8 ∧
      reportedVersion "Picked up \"options\njava \"8.0_362\" \"9\"\n\"11\"".toList = .ok 8 := by
  obtain ⟨legacy, modern⟩ := versions_are_read.2.2 8 ["Picked up \"options".toList] "java ".toList
    ['.', '0', '_', '3', '6', '2'] " \"9\"\n\"11\"".toList (by decide) (by decide +kernel)
    (by decide +kernel) (by decide) (fun c first => by cases first; rfl)
  refine ⟨(congrArg reportedVersion ?_).trans legacy,
    (congrArg reportedVersion ?_).trans (modern (by decide +kernel))⟩
  all_goals decide +kernel

end Stubwright.Toolchain
