import Mathlib.Data.List.Induction
import Mathlib.Data.Nat.Digits.Defs
import ZMachine.CommandLine

/-!
# Groups of arguments

The arguments after the name of the story are read in groups: an option with its value, or an option that takes none.  A
value is taken as it is, whatever it looks like.  Since the first word of a group says how long it is, there is only one
way to read the arguments, and if not all of them can be read there is only one place to stop at.

* `IsStepCount`, `stepCount?_eq_some_iff`: the texts of numbers;
* `OptionGroup`, `Refusal`: the groups, and why none can be read;
* `Options.extend_append_words`, `Options.extend_flatMap_words`: what a group adds to the options, and a row of groups;
* `OptionGroup.exists_split`, `OptionGroup.isPrefix_of_split`: the arguments split into groups in one way only;
* `Options.parse_reads_groups`: which commands are read, as what, and why others are not.
-/

namespace ZMachine

/-! ### Step counts -/

/-- A text stands for a number that 64 bits hold: decimal digits, at least one, perhaps after a plus sign. -/
def IsStepCount (text : String) (n : Nat) : Prop :=
  ∃ sign digits : List Char, text.toList = sign ++ digits ∧ (sign = [] ∨ sign = ['+']) ∧ digits ≠ [] ∧
    (∀ c ∈ digits, '0' ≤ c ∧ c ≤ '9') ∧ n = Nat.ofDigits 10 (digits.reverse.map fun c => c.toNat - '0'.toNat) ∧
    n < 0x10000000000000000

/-- The digits of a number, the last one first, determine its value. -/
theorem decimalValue_eq_ofDigits (digits : List Char) :
    decimalValue digits = Nat.ofDigits 10 (digits.reverse.map fun c => c.toNat - '0'.toNat) := by
  induction digits using List.reverseRecOn with
  | nil => rfl
  | append_singleton digits c ih =>
    rw [List.reverse_append, List.reverse_singleton, List.singleton_append, List.map_cons, Nat.ofDigits_cons, ← ih,
      decimalValue, List.foldl_append, List.foldl_cons, List.foldl_nil, Nat.add_comm]
    rfl

theorem isDigit_iff {c : Char} : c.isDigit = true ↔ '0' ≤ c ∧ c ≤ '9' := by
  simp [Char.isDigit, Char.le_def]

/-- A plus sign in front is passed over, and no other one. -/
theorem stepCount?_eq (text : String) : ∃ sign digits, text.toList = sign ++ digits ∧
    (sign = ['+'] ∨ sign = [] ∧ ∀ rest, digits ≠ '+' :: rest) ∧
    stepCount? text = if digits ≠ [] ∧ digits.all Char.isDigit ∧ decimalValue digits < 0x10000000000000000 then
      some (decimalValue digits) else none := by
  unfold stepCount?
  dsimp only
  generalize text.toList = cs
  split
  · next rest => exact ⟨['+'], rest, rfl, .inl rfl, rfl⟩
  · next hplus => exact ⟨[], _, rfl, .inr ⟨rfl, hplus⟩, rfl⟩

/-- **The texts that name a step count** are the decimal numbers of 64 bits, with or without a plus sign. -/
theorem stepCount?_eq_some_iff {text : String} {n : Nat} : stepCount? text = some n ↔ IsStepCount text n := by
  obtain ⟨sign, digits, htext, hsign, hcount⟩ := stepCount?_eq text
  rw [hcount, Option.ite_none_right_eq_some]
  constructor
  · rintro ⟨⟨hne, hall, hlt⟩, hn⟩
    cases hn
    have hsign' : sign = [] ∨ sign = ['+'] := hsign.elim .inr fun h => .inl h.1
    refine ⟨sign, digits, htext, hsign', hne, ?_, decimalValue_eq_ofDigits digits, hlt⟩
    intro c hc
    exact isDigit_iff.1 (List.all_eq_true.1 hall c hc)
  · rintro ⟨sign', digits', htext', hsign', hne, hdigits, rfl, hlt⟩
    -- a plus sign is no digit, so the text can be taken apart in one way only
    have hplus : ∀ rest, digits' ≠ '+' :: rest := by
      rintro rest rfl
      have hdigit := hdigits '+' List.mem_cons_self
      exact absurd hdigit (by decide)
    have hsame : digits = digits' := by
      rw [htext] at htext'
      rcases hsign with rfl | ⟨rfl, hfree⟩ <;> rcases hsign' with rfl | rfl
      · exact absurd htext'.symm (hplus digits)
      · exact (List.cons.inj htext').2
      · exact htext'
      · exact absurd htext' (hfree digits')
    subst hsame
    rw [← decimalValue_eq_ofDigits] at hlt ⊢
    refine ⟨⟨hne, ?_, hlt⟩, rfl⟩
    rw [List.all_eq_true]
    intro c hc
    exact isDigit_iff.2 (hdigits c hc)

/-- A text stands for one number at most. -/
theorem IsStepCount.unique {text : String} {n n' : Nat} (h : IsStepCount text n) (h' : IsStepCount text n') : n = n' := by
  rw [← stepCount?_eq_some_iff] at h h'
  rw [h] at h'
  exact Option.some.inj h'

/-! ### Groups -/

/-- An option with its value, or one that takes none.  A number comes with the text that stands for it. -/
inductive OptionGroup where
  | steps (text : String) (count : Nat) (spelled : IsStepCount text count)
  | config (file : String)
  | trace
  | header
  | coverage

namespace OptionGroup

/-- The arguments that make up a group. -/
def words : OptionGroup → List String
  | .steps text _ _ => ["--steps", text]
  | .config file => ["--config", file]
  | .trace => ["--trace"]
  | .header => ["--header"]
  | .coverage => ["--coverage"]

/-- The number of steps that a group asks for. -/
def count? : OptionGroup → Option Nat
  | .steps _ count _ => some count
  | _ => none

/-- The file of settings that a group names. -/
def file? : OptionGroup → Option String
  | .config file => some file
  | _ => none

/-- The first words of groups. -/
def names : List String :=
  ["--steps", "--config", "--trace", "--header", "--coverage"]

end OptionGroup

/-- Why no group can be read at the front of some arguments, and what is said of it. -/
inductive Refusal : List String → UsageError → String → Prop
  | stepsMissing : Refusal ["--steps"] .stepsMissing "--steps needs a number"
  | stepsInvalid {value : String} (rest : List String) (h : ∀ n, ¬IsStepCount value n) :
    Refusal ("--steps" :: value :: rest) (.stepsInvalid value) s!"Invalid step count: {value}"
  | configMissing : Refusal ["--config"] .configMissing "--config needs a file name"
  | unknownOption {argument : String} (rest : List String) (h : argument ∉ OptionGroup.names) :
    Refusal (argument :: rest) (.unknownOption argument) s!"Unknown option: {argument}"

namespace OptionGroup

/-! ### One way to read -/

variable {group group' : OptionGroup} {groups groups' : List OptionGroup} {rest rest' : List String}

/-- The first word of a group says which group it is and where it ends. -/
theorem words_append_inj (h : group.words ++ rest = group'.words ++ rest') : group = group' ∧ rest = rest' := by
  cases group with
  | steps text count hcount =>
    cases group' with
    | steps text' count' hcount' =>
      simp only [words, List.cons_append, List.nil_append, List.cons.injEq, true_and] at h
      obtain ⟨rfl, rfl⟩ := h
      obtain rfl := hcount.unique hcount'
      exact ⟨rfl, rfl⟩
    | config | trace | header | coverage => simp [words] at h
  | config file =>
    cases group' with
    | config file' => simpa [words] using h
    | steps | trace | header | coverage => simp [words] at h
  | trace | header | coverage => cases group' <;> simp_all [words]

end OptionGroup

namespace Refusal

variable {arguments : List String} {e : UsageError} {text : String}

theorem message_eq (h : Refusal arguments e text) : e.message = text := by
  cases h <;> rfl

/-- Where a reason is given, no group can be read. -/
theorem ne_words_append (h : Refusal arguments e text) (group : OptionGroup) (rest : List String) :
    arguments ≠ group.words ++ rest := by
  intro heq
  cases h with
  | stepsMissing => cases group <;> simp [OptionGroup.words] at heq
  | configMissing => cases group <;> simp [OptionGroup.words] at heq
  | stepsInvalid more h =>
    cases group with
    | steps text count hcount =>
      simp only [OptionGroup.words, List.cons_append, List.nil_append, List.cons.injEq, true_and] at heq
      obtain ⟨rfl, -⟩ := heq
      exact h count hcount
    | config | trace | header | coverage => simp [OptionGroup.words] at heq
  | unknownOption more h =>
    cases group <;> simp_all [OptionGroup.words, OptionGroup.names]

end Refusal

namespace OptionGroup

/-- At the front of some arguments there is a group, or a reason why there is none, unless there are no arguments. -/
theorem front_cases (arguments : List String) :
    arguments = [] ∨ (∃ (group : OptionGroup) (rest : List String), arguments = group.words ++ rest) ∨
      ∃ e text, Refusal arguments e text := by
  cases arguments with
  | nil => exact .inl rfl
  | cons argument rest =>
    right
    by_cases hname : argument ∈ names
    · simp only [names, List.mem_cons, List.not_mem_nil, or_false] at hname
      rcases hname with rfl | rfl | rfl | rfl | rfl
      · cases rest with
        | nil => exact .inr ⟨_, _, .stepsMissing⟩
        | cons value rest =>
          by_cases hcount : ∃ n, IsStepCount value n
          · obtain ⟨n, hn⟩ := hcount
            exact .inl ⟨.steps value n hn, rest, rfl⟩
          · exact .inr ⟨_, _, .stepsInvalid rest fun n hn => hcount ⟨n, hn⟩⟩
      · cases rest with
        | nil => exact .inr ⟨_, _, .configMissing⟩
        | cons file rest => exact .inl ⟨.config file, rest, rfl⟩
      · exact .inl ⟨.trace, rest, rfl⟩
      · exact .inl ⟨.header, rest, rfl⟩
      · exact .inl ⟨.coverage, rest, rfl⟩
    · exact .inr ⟨_, _, .unknownOption rest hname⟩

/-- **Arguments can be read in groups**, up to their end or to a place where there is a reason to stop. -/
theorem exists_split (arguments : List String) : ∃ (groups : List OptionGroup) (rest : List String),
    arguments = groups.flatMap words ++ rest ∧ (rest = [] ∨ ∃ e text, Refusal rest e text) := by
  induction hlength : arguments.length using Nat.strongRecOn generalizing arguments with
  | ind length ih =>
    rcases front_cases arguments with hnil | ⟨group, rest, rfl⟩ | hrefusal
    · exact ⟨[], arguments, rfl, .inl hnil⟩
    · have hwords : group.words.length ≠ 0 := by cases group <;> simp [words]
      have hshorter : rest.length < length := by
        rw [List.length_append] at hlength
        omega
      obtain ⟨groups, rest', rfl, hrest⟩ := ih rest.length hshorter rest rfl
      refine ⟨group :: groups, rest', ?_, hrest⟩
      rw [List.flatMap_cons, List.append_assoc]
    · exact ⟨[], arguments, rfl, .inr hrefusal⟩

/-- **There is no other way to read them**: where no group can be read any more, every other reading has come the same way
and not as far. -/
theorem isPrefix_of_split (h : groups.flatMap words ++ rest = groups'.flatMap words ++ rest')
    (hrest : ∀ (group : OptionGroup) (more : List String), rest ≠ group.words ++ more) : groups' <+: groups := by
  induction groups' generalizing groups with
  | nil => exact List.nil_prefix
  | cons group' groups' ih =>
    rw [List.flatMap_cons, List.append_assoc] at h
    cases groups with
    | nil => exact absurd h (hrest group' _)
    | cons group groups =>
      rw [List.flatMap_cons, List.append_assoc] at h
      obtain ⟨rfl, hrests⟩ := words_append_inj h
      exact (List.prefix_cons_inj group).2 (ih hrests)

end OptionGroup

/-! ### What groups ask for -/

namespace Options

open OptionGroup

variable {o : Options} {story : String} {groups : List OptionGroup}

/-- The options with a group taken into account. -/
def add (o : Options) : OptionGroup → Options
  | .steps _ count _ => { o with steps := some count }
  | .config file => { o with config := some file }
  | .trace => { o with trace := true }
  | .header => { o with header := true }
  | .coverage => { o with coverage := true }

/-- **What a group adds to the options** is settled before the rest is looked at. -/
theorem extend_append_words (o : Options) (group : OptionGroup) (rest : List String) :
    o.extend (group.words ++ rest) = (o.add group).extend rest := by
  cases group with
  | steps text count hcount =>
    rw [words, List.cons_append, List.singleton_append, extend, stepCount?_eq_some_iff.2 hcount]
    rfl
  | config file | trace | header | coverage => rfl

theorem extend_flatMap_words (o : Options) (groups : List OptionGroup) (rest : List String) :
    o.extend (groups.flatMap words ++ rest) = (groups.foldl add o).extend rest := by
  induction groups generalizing o with
  | nil => rfl
  | cons group groups ih => rw [List.flatMap_cons, List.append_assoc, extend_append_words, ih, List.foldl_cons]

/-- Where no group can be read, the reason for this is the error. -/
theorem extend_of_refusal {rest : List String} {e : UsageError} {text : String} (h : Refusal rest e text) :
    o.extend rest = .error e := by
  cases h with
  | stepsMissing | configMissing => rfl
  | @stepsInvalid value more hinvalid =>
    have hnone : stepCount? value = none := by
      rw [Option.eq_none_iff_forall_ne_some]
      intro n hn
      exact hinvalid n (stepCount?_eq_some_iff.1 hn)
    rw [extend, hnone]
  | unknownOption more hname =>
    simp only [names, List.mem_cons, List.not_mem_nil, or_false, not_or] at hname
    obtain ⟨hsteps, hconfig, htrace, hheader, hcoverage⟩ := hname
    rw [extend]
    · exact hsteps
    · exact hconfig
    · exact htrace
    · exact hheader
    · exact hcoverage

/-- The options say what the groups ask for: a flag is set if its group is there, and of the groups with a value the last
one counts. -/
structure DescribedBy (o : Options) (story : String) (groups : List OptionGroup) : Prop where
  story : o.story = story
  steps : o.steps = (groups.filterMap OptionGroup.count?).getLast?
  config : o.config = (groups.filterMap OptionGroup.file?).getLast?
  trace : o.trace = true ↔ .trace ∈ groups
  header : o.header = true ↔ .header ∈ groups
  coverage : o.coverage = true ↔ .coverage ∈ groups

/-- One more group. -/
theorem DescribedBy.add (h : o.DescribedBy story groups) (group : OptionGroup) :
    (o.add group).DescribedBy story (groups ++ [group]) := by
  obtain ⟨hstory, hsteps, hconfig, htrace, hheader, hcoverage⟩ := h
  cases group <;> constructor <;> simp_all [Options.add, count?, file?]

theorem describedBy_foldl_add (story : String) (groups : List OptionGroup) :
    (groups.foldl Options.add { story }).DescribedBy story groups := by
  induction groups using List.reverseRecOn with
  | nil => constructor <;> simp
  | append_singleton groups group ih =>
    rw [List.foldl_append, List.foldl_cons, List.foldl_nil]
    exact ih.add group

/-- How a command is read: the name of the story, and the arguments after it in groups. -/
structure ReadInGroups (story : String) (arguments : List String) : Prop where
  /-- A command is understood if its arguments are groups one after the other. -/
  succeeds_iff : (parse story arguments).isOk ↔ ∃ groups : List OptionGroup, arguments = groups.flatMap words
  /-- Then the options are what these groups ask for. -/
  described : ∀ groups : List OptionGroup, arguments = groups.flatMap words →
    ∃ o, parse story arguments = .ok o ∧ o.DescribedBy story groups
  /-- Otherwise there are groups up to some place, and the error is the reason why no other group can be read there. -/
  refused_iff : ∀ e, parse story arguments = .error e ↔
    ∃ (groups : List OptionGroup) (rest : List String), arguments = groups.flatMap words ++ rest ∧ Refusal rest e e.message
  /-- This is the first such place: any groups that the arguments begin with are among those before it. -/
  leftmost : ∀ (groups : List OptionGroup) (rest : List String) (e : UsageError) (text : String),
    arguments = groups.flatMap words ++ rest → Refusal rest e text →
    (∀ (group : OptionGroup) (more : List String), rest ≠ group.words ++ more) ∧
      ∀ (groups' : List OptionGroup) (rest' : List String), arguments = groups'.flatMap words ++ rest' → groups' <+: groups

/-- **A command is read in groups.**  It is understood exactly if the arguments after the name of the story are groups one
after the other, and the options are what the groups ask for.  Otherwise the error is that of the first place where no
group can be read. -/
theorem parse_reads_groups (story : String) (arguments : List String) : ReadInGroups story arguments := by
  have hwhole : ∀ groups : List OptionGroup, arguments = groups.flatMap words →
      parse story arguments = .ok (groups.foldl add { story }) := by
    intro groups hgroups
    rw [hgroups, ← List.append_nil (groups.flatMap words), parse, extend_flatMap_words]
    rfl
  have hrefused : ∀ (groups : List OptionGroup) (rest : List String) (e : UsageError) (text : String),
      arguments = groups.flatMap words ++ rest → Refusal rest e text → parse story arguments = .error e := by
    intro groups rest e text hsplit hrefusal
    rw [hsplit, parse, extend_flatMap_words]
    exact extend_of_refusal hrefusal
  obtain ⟨groups, rest, hsplit, hrest⟩ := exists_split arguments
  refine ⟨⟨?_, ?_⟩, ?_, ?_, ?_⟩
  · intro hok
    rcases hrest with rfl | ⟨e, text, hrefusal⟩
    · exact ⟨groups, by rw [hsplit, List.append_nil]⟩
    · rw [hrefused groups rest e text hsplit hrefusal] at hok
      cases hok
  · rintro ⟨groups, hgroups⟩
    rw [hwhole groups hgroups]
    rfl
  · intro groups hgroups
    exact ⟨_, hwhole groups hgroups, describedBy_foldl_add story groups⟩
  · intro e
    constructor
    · intro herror
      rcases hrest with rfl | ⟨e', text, hrefusal⟩
      · rw [hwhole groups (by rw [hsplit, List.append_nil])] at herror
        cases herror
      · rw [hrefused groups rest e' text hsplit hrefusal] at herror
        cases herror
        obtain rfl := hrefusal.message_eq
        exact ⟨groups, rest, hsplit, hrefusal⟩
    · rintro ⟨groups, rest, hsplit, hrefusal⟩
      exact hrefused groups rest e _ hsplit hrefusal
  · intro groups rest e text hsplit hrefusal
    refine ⟨hrefusal.ne_words_append, ?_⟩
    intro groups' rest' hsplit'
    exact isPrefix_of_split (hsplit.symm.trans hsplit') hrefusal.ne_words_append

/-- An option may be the value of another one, and of two counts the second one counts. -/
example : parse "story.z3" ["--config", "--trace", "--steps", "7", "--header", "--steps", "+010"] =
    .ok { story := "story.z3", config := some "--trace", steps := some 10, header := true } := by
  decide

/-- The value of the second count is missing; that the first one is none is found before that. -/
example : parse "story.z3" ["--trace", "--steps", "-1", "--steps"] = .error (.stepsInvalid "-1") := by
  decide

end Options

end ZMachine
