import Mathlib.Data.List.Sigma
import Rumour.Command.Arguments
import Rumour.Proofs.Text.Count

set_option autoImplicit false

/-!
Settings that are given. In any order, each at most once and in any of its forms, they are all taken; the options have
the value of each, and where nothing is given what is standard. So their order and their forms do not matter.
-/

namespace Rumour.Command

open Rumour.Binary Rumour.Text

inductive Kind where
  | count
  | bias
  | path
  deriving DecidableEq, Repr

abbrev Kind.Value : Kind -> Type
  | .count => Nat
  | .bias => Binary64
  | .path => String

abbrev Setting.kind : Setting -> Kind
  | .seedBias => .bias
  | .output => .path
  | _ => .count

/-- A text that spells a value. Some forms take a bias or a path that begins with a dash as well; not all of them do. -/
def Kind.Spells : (kind : Kind) -> kind.Value -> String -> Prop
  | .count, number, text => Count.Spells text.toList number
  | .bias, value, text => Binary64.read text.toList = .ok value ∧ text.toList.head? ≠ some '-'
  | .path, value, text => text = value ∧ text ≠ "" ∧ text.toList.head? ≠ some '-'

def Setting.long : Setting -> String
  | .start => "--start"
  | .stop => "--stop"
  | .step => "--step"
  | .repetitions => "--repetitions"
  | .peers => "--peers"
  | .seeds => "--seeds"
  | .seedBias => "--seed-bias"
  | .maxRounds => "--max-rounds"
  | .randomSeed => "--rng-seed"
  | .threads => "--threads"
  | .output => "--output"

def Setting.short? : Setting -> Option String
  | .repetitions => some "-r"
  | .threads => some "-j"
  | .output => some "-o"
  | _ => none

/-- The forms in which a text is given to a setting. A text at the letter itself does not begin with an equals sign,
which would be taken off. -/
inductive Setting.Form (setting : Setting) (text : String) : List String -> Prop where
  | named : Form setting text [setting.long, text]
  | namedEquals : Form setting text [setting.long ++ "=" ++ text]
  | lettered {short : String} (known : setting.short? = some short) : Form setting text [short, text]
  | letteredEquals {short : String} (known : setting.short? = some short) :
      Form setting text [short ++ "=" ++ text]
  | attached {short : String} (known : setting.short? = some short) (shown : text ≠ "")
      (bare : text.toList.head? ≠ some '=') : Form setting text [short ++ text]

abbrev Entry : Type :=
  (setting : Setting) × setting.kind.Value

/-- A setting with its value, and arguments that give it. -/
structure Given where
  setting : Setting
  value : setting.kind.Value
  arguments : List String
  said : ∃ text, setting.kind.Spells value text ∧ setting.Form text arguments

def Given.entry (given : Given) : Entry :=
  ⟨given.setting, given.value⟩

/-- The plan in which the values of given settings stand for what was there. -/
def replaced (given : (setting : Setting) -> Option setting.kind.Value) (plan : Plan) : Plan :=
  { sizes :=
      { start := (given .start).getD plan.sizes.start
        stop := (given .stop).getD plan.sizes.stop
        step := (given .step).getD plan.sizes.step }
    repetitions := (given .repetitions).getD plan.repetitions
    peers := (given .peers).getD plan.peers
    seeds := (given .seeds).getD plan.seeds
    seedBias := (given .seedBias).getD plan.seedBias
    maxRounds := (given .maxRounds).or plan.maxRounds
    randomSeed := ((given .randomSeed).map UInt64.ofNat).or plan.randomSeed
    threads := (given .threads).or plan.threads }

def Options.replaced (options : Options) (given : (setting : Setting) -> Option setting.kind.Value) : Options :=
  { start := (given .start).getD options.start
    stop := (given .stop).getD options.stop
    step := (given .step).getD options.step
    repetitions := (given .repetitions).getD options.repetitions
    peers := (given .peers).getD options.peers
    seeds := (given .seeds).getD options.seeds
    seedBias := (given .seedBias).getD options.seedBias
    maxRounds := (given .maxRounds).or options.maxRounds
    randomSeed := ((given .randomSeed).map UInt64.ofNat).or options.randomSeed
    threads := (given .threads).or options.threads
    output := (given .output).getD options.output }

theorem Options.plan_replaced (given : (setting : Setting) -> Option setting.kind.Value) :
    (standard.replaced given).plan = Command.replaced given Plan.standard := rfl

/-! Texts of arguments -/

namespace Argument

theorem span_name {name : List Char} (bare : '=' ∉ name) (rest : List Char) :
    (name ++ rest).takeWhile (· != '=') = name ++ rest.takeWhile (· != '=') ∧
      (name ++ rest).dropWhile (· != '=') = rest.dropWhile (· != '=') := by
  have all : ∀ character ∈ name, (character != '=') = true := by
    intro character member
    simpa using fun same : character = '=' => bare (same ▸ member)
  exact ⟨List.takeWhile_append_of_pos all, List.dropWhile_append_of_pos all⟩

theorem ofText_dashes {text : String} {rest : List Char} (spelled : text.toList = '-' :: '-' :: rest)
    (more : rest ≠ []) :
    ofText text =
      match rest.dropWhile (· != '=') with
      | [] => .named (String.ofList (rest.takeWhile (· != '='))) none
      | _ :: value => .named (String.ofList (rest.takeWhile (· != '='))) (some (String.ofList value)) := by
  unfold ofText
  split
  next alone =>
    cases spelled.symm.trans alone
    exact absurd rfl more
  next dashed =>
    cases spelled.symm.trans dashed
    rfl
  next notDashed lettered =>
    cases spelled.symm.trans lettered
    exact absurd rfl notDashed
  next notDashed => exact absurd spelled (notDashed _ _)

theorem ofText_name {name : String} (shown : name ≠ "") (bare : '=' ∉ name.toList) :
    ofText ("--" ++ name) = .named name none := by
  obtain ⟨taken, dropped⟩ := span_name bare []
  simp only [List.append_nil, List.takeWhile_nil, List.dropWhile_nil] at taken dropped
  have spelled : ("--" ++ name).toList = '-' :: '-' :: name.toList := by simp
  rw [ofText_dashes spelled (by simpa using shown), taken, dropped, String.ofList_toList]

theorem ofText_nameEquals {name : String} (bare : '=' ∉ name.toList) (value : String) :
    ofText ("--" ++ name ++ "=" ++ value) = .named name (some value) := by
  obtain ⟨taken, dropped⟩ := span_name bare ('=' :: value.toList)
  have spelled : ("--" ++ name ++ "=" ++ value).toList = '-' :: '-' :: (name.toList ++ '=' :: value.toList) := by
    simp
  rw [ofText_dashes spelled (by simp), taken, dropped]
  simp

theorem ofText_letter {text : String} {letter : Char} {rest : List Char} (other : '-' ≠ letter)
    (spelled : text.toList = '-' :: letter :: rest) : ofText text = .lettered letter rest := by
  unfold ofText
  split <;> simp_all

theorem ofText_plain {text : String} (bare : text.toList.head? ≠ some '-') : ofText text = .plain text := by
  unfold ofText
  split <;> simp_all

end Argument

theorem attachedToLetter_equals (text : String) : attachedToLetter ('=' :: text.toList) = some text := by
  rw [attachedToLetter, String.ofList_toList]

theorem attachedToLetter_bare {text : String} (shown : text ≠ "") (bare : text.toList.head? ≠ some '=') :
    attachedToLetter text.toList = some text := by
  unfold attachedToLetter
  split <;> simp_all

theorem Setting.long_eq (setting : Setting) : setting.long = "--" ++ setting.name := by
  cases setting <;> decide

theorem Setting.name_plain (setting : Setting) : setting.name ≠ "" ∧ '=' ∉ setting.name.toList := by
  cases setting <;> decide

theorem Setting.exists_letter {setting : Setting} {short : String} (known : setting.short? = some short) :
    ∃ letter, setting.letter? = some letter ∧ '-' ≠ letter ∧ short.toList = ['-', letter] := by
  cases setting <;> cases known <;> exact ⟨_, rfl, by decide, by decide⟩

/-! Values -/

namespace Kind

theorem Spells.bare {kind : Kind} {value : kind.Value} {text : String} (spelled : kind.Spells value text) :
    text.toList.head? ≠ some '-' := by
  cases kind with
  | count => exact Count.Spells.not_dashed spelled
  | bias => exact spelled.2
  | path => exact spelled.2.2

end Kind

theorem Setting.count_spells {text : String} {number : Nat} (spelled : Count.Spells text.toList number) :
    Setting.count text = .ok number := by
  rw [Setting.count, Count.read_eq_ok_iff.2 spelled]
  rfl

def single (entry : Entry) (setting : Setting) : Option setting.kind.Value :=
  [entry].dlookup setting

theorem Setting.assign_spells (setting : Setting) {value : setting.kind.Value} {text : String}
    (spelled : setting.kind.Spells value text) (options : Options) :
    setting.assign text options = .ok (options.replaced (single ⟨setting, value⟩)) := by
  cases setting with
  | output =>
      obtain ⟨rfl, shown, _⟩ := spelled
      have some : text.isEmpty = false := by simpa using shown
      simp only [Setting.assign, some]
      rfl
  | seedBias =>
      have read : Setting.bias text = .ok value := by
        rw [Setting.bias, spelled.1]
        rfl
      simp only [Setting.assign, read]
      rfl
  | _ =>
      have read := Setting.count_spells spelled
      simp only [Setting.assign, read]
      rfl

theorem Options.replaced_replaced (options : Options) (first second : (setting : Setting) -> Option setting.kind.Value) :
    (options.replaced first).replaced second = options.replaced fun setting => (second setting).or (first setting) := by
  simp only [replaced, Option.getD_or, Option.or_assoc, Option.map_or]

theorem Options.replaced_perm {entries others : List Entry} (once : entries.NodupKeys) (reordered : entries.Perm others)
    (options : Options) :
    (options.replaced fun setting => entries.dlookup setting) =
      options.replaced fun setting => others.dlookup setting := by
  have looked : (fun setting => entries.dlookup setting) = fun setting => others.dlookup setting :=
    funext fun setting => List.perm_dlookup setting once reordered
  rw [looked]

namespace Intake

variable {intake : Intake} {setting : Setting} {text : String}

theorem take_named (unseparated : intake.separated = false) {attached : Option String}
    (shape : Argument.ofText text = .named setting.name attached) :
    intake.take text = intake.takeSetting setting attached := by
  cases setting <;> simp only [take, unseparated, shape, Setting.name] <;> rfl

theorem take_lettered (unseparated : intake.separated = false) {letter : Char} {rest : List Char}
    (known : setting.letter? = some letter) (shape : Argument.ofText text = .lettered letter rest) :
    intake.take text = intake.takeSetting setting (attachedToLetter rest) := by
  cases setting <;> cases known <;> simp only [take, unseparated, shape] <;> rfl

theorem take_plain (unseparated : intake.separated = false) (bare : text.toList.head? ≠ some '-') :
    intake.take text = intake.takePlain text := by
  simp only [take, unseparated, Argument.ofText_plain bare]
  rfl

/-! Settings taken -/

/-- Some settings have been taken, the latest first, and none is set aside. -/
def holding (entries : List Entry) : Intake :=
  { options := Options.standard.replaced fun setting => entries.dlookup setting
    given := entries.keys
    pending := none
    separated := false }

/-- Behind some settings, of which the latest may still be set aside. -/
structure Holds (entries : List Entry) (intake : Intake) : Prop where
  settles : intake.settle = .ok (holding entries)
  unseparated : intake.separated = false

variable {entries : List Entry} {value : setting.kind.Value}

theorem store_holding (spelled : setting.kind.Spells value text) (new : setting ∉ entries.keys) :
    (holding entries).store setting text = .ok (holding (⟨setting, value⟩ :: entries)) := by
  have unlisted : (holding entries).given.contains setting = false := by simpa [holding] using new
  have assigned := setting.assign_spells spelled (holding entries).options
  have options : (holding entries).options.replaced (single ⟨setting, value⟩) =
      (holding (⟨setting, value⟩ :: entries)).options := by
    have looked : (fun other => (single ⟨setting, value⟩ other).or (entries.dlookup other)) =
        fun other => (⟨setting, value⟩ :: entries : List Entry).dlookup other :=
      funext fun other => (List.dlookup_append ([⟨setting, value⟩] : List Entry) entries other).symm
    rw [holding, Options.replaced_replaced, looked]
    rfl
  rw [store, unlisted, assigned, options]
  rfl

namespace Holds

theorem of_holding (entries : List Entry) : Holds entries (holding entries) :=
  { settles := rfl
    unseparated := rfl }

theorem foldlM_attached (holds : Holds entries intake) (spelled : setting.kind.Spells value text)
    (new : setting ∉ entries.keys) {argument : String}
    (asks : intake.take argument = intake.takeSetting setting (some text)) :
    ∃ next, [argument].foldlM take intake = .ok next ∧ Holds (⟨setting, value⟩ :: entries) next := by
  have taken : intake.take argument = .ok (holding (⟨setting, value⟩ :: entries)) := by
    rw [asks, takeSetting, holds.settles]
    exact store_holding spelled new
  refine ⟨_, ?_, .of_holding _⟩
  rw [List.foldlM_cons, taken]
  rfl

theorem foldlM_apart (holds : Holds entries intake) (spelled : setting.kind.Spells value text)
    (new : setting ∉ entries.keys) {argument : String}
    (asks : intake.take argument = intake.takeSetting setting none) :
    ∃ next, [argument, text].foldlM take intake = .ok next ∧ Holds (⟨setting, value⟩ :: entries) next := by
  -- The value that follows is only set aside; that it is good shows when it is settled.
  let asked : Intake := { holding entries with pending := some { setting, value := none } }
  let aside : Intake := { holding entries with pending := some { setting, value := some text } }
  have first : intake.take argument = .ok asked := by
    rw [asks, takeSetting, holds.settles]
    rfl
  have second : asked.take text = .ok aside := take_plain rfl spelled.bare
  refine ⟨aside, ?_, store_holding spelled new, rfl⟩
  rw [List.foldlM_cons, first]
  change [text].foldlM take asked = .ok aside
  rw [List.foldlM_cons, second]
  rfl

theorem foldlM_given (holds : Holds entries intake) (given : Given) (new : given.setting ∉ entries.keys) :
    ∃ next, given.arguments.foldlM take intake = .ok next ∧ Holds (given.entry :: entries) next := by
  obtain ⟨setting, value, arguments, text, spelled, form⟩ := given
  obtain ⟨named, bare⟩ := setting.name_plain
  have unseparated := holds.unseparated
  cases form with
  | named =>
      have shape : Argument.ofText setting.long = .named setting.name none := by
        rw [setting.long_eq, Argument.ofText_name named bare]
      exact holds.foldlM_apart spelled new (take_named unseparated shape)
  | namedEquals =>
      have shape : Argument.ofText (setting.long ++ "=" ++ text) = .named setting.name (some text) := by
        rw [setting.long_eq, Argument.ofText_nameEquals bare]
      exact holds.foldlM_attached spelled new (take_named unseparated shape)
  | lettered known =>
      obtain ⟨letter, known, other, dashed⟩ := Setting.exists_letter known
      exact holds.foldlM_apart spelled new (take_lettered unseparated known (Argument.ofText_letter other dashed))
  | @letteredEquals short known =>
      obtain ⟨letter, known, other, dashed⟩ := Setting.exists_letter known
      have shape : (short ++ "=" ++ text).toList = '-' :: letter :: '=' :: text.toList := by simp [dashed]
      have asks := take_lettered unseparated known (Argument.ofText_letter other shape)
      rw [attachedToLetter_equals] at asks
      exact holds.foldlM_attached spelled new asks
  | @attached short known shown unsigned =>
      obtain ⟨letter, known, other, dashed⟩ := Setting.exists_letter known
      have shape : (short ++ text).toList = '-' :: letter :: text.toList := by simp [dashed]
      have asks := take_lettered unseparated known (Argument.ofText_letter other shape)
      rw [attachedToLetter_bare shown unsigned] at asks
      exact holds.foldlM_attached spelled new asks

theorem foldlM_givens (givens : List Given) (holds : Holds entries intake)
    (once : ((givens.map Given.entry).reverse ++ entries).NodupKeys) :
    ∃ next, (givens.flatMap Given.arguments).foldlM take intake = .ok next ∧
      Holds ((givens.map Given.entry).reverse ++ entries) next := by
  -- What has been taken grows at the front, and the settings still to come are none of it.
  induction givens generalizing intake entries with
  | nil => exact ⟨intake, rfl, holds⟩
  | cons given rest ih =>
      simp only [List.map_cons, List.reverse_cons, List.append_assoc, List.singleton_append] at once ⊢
      have behind : (given.entry :: entries).NodupKeys := List.NodupKeys.sublist (List.sublist_append_right _ _) once
      obtain ⟨next, taken, holdsNext⟩ := holds.foldlM_given given (List.nodupKeys_cons.1 behind).1
      obtain ⟨last, later, holdsLast⟩ := ih holdsNext once
      refine ⟨last, ?_, holdsLast⟩
      rw [List.flatMap_cons, List.foldlM_append, taken]
      exact later

end Holds

end Intake

theorem parse_holds {givens : List Given} (once : (givens.map Given.entry).NodupKeys) :
    Options.parse (givens.flatMap Given.arguments) =
      .ok (Options.standard.replaced fun setting => (givens.map Given.entry).dlookup setting) := by
  have turned : (givens.map Given.entry).reverse.Perm (givens.map Given.entry) := List.reverse_perm _
  have distinct := (List.perm_nodupKeys turned).2 once
  have begun : Intake.Holds [] Intake.initial := .of_holding []
  obtain ⟨last, taken, holds⟩ := begun.foldlM_givens givens (by rwa [List.append_nil])
  rw [List.append_nil] at holds
  rw [Options.parse, taken]
  change (last.settle >>= fun intake => pure intake.options) = _
  rw [holds.settles]
  -- The latest stands first in what was taken, but each setting is there once.
  exact congrArg Except.ok (Options.standard.replaced_perm distinct turned)

/-- Whichever settings are given, each at most once, in any forms and any order: the plan is the standard one with their
values in it, and the path of the table is the one given or else the usual one. The same values in another order and
other forms give the same options. -/
theorem parse_given {givens : List Given} (once : (givens.map Given.entry).NodupKeys) :
    (∃ options, Options.parse (givens.flatMap Given.arguments) = .ok options ∧
        options.plan = replaced (fun setting => (givens.map Given.entry).dlookup setting) Plan.standard ∧
        options.output = ((givens.map Given.entry).dlookup .output).getD "data.csv") ∧
      ∀ others : List Given, (others.map Given.entry).Perm (givens.map Given.entry) →
        Options.parse (others.flatMap Given.arguments) = Options.parse (givens.flatMap Given.arguments) := by
  refine ⟨⟨_, parse_holds once, Options.plan_replaced _, rfl⟩, fun others reordered => ?_⟩
  have distinct := (List.perm_nodupKeys reordered).2 once
  rw [parse_holds once, parse_holds distinct, Options.standard.replaced_perm distinct reordered]

section

variable {arguments : List String}

def sevenThreads (form : Setting.threads.Form "007" arguments) : Given :=
  { setting := .threads
    value := (7 : Nat)
    arguments
    said := ⟨"007", Count.read_eq_ok_iff.1 rfl, form⟩ }

def startTen (form : Setting.start.Form "+10" arguments) : Given :=
  { setting := .start
    value := (10 : Nat)
    arguments
    said := ⟨"+10", Count.read_eq_ok_iff.1 rfl, form⟩ }

def fourPeers (form : Setting.peers.Form "4" arguments) : Given :=
  { setting := .peers
    value := (4 : Nat)
    arguments
    said := ⟨"4", Count.read_eq_ok_iff.1 rfl, form⟩ }

def lastSeed (form : Setting.randomSeed.Form "18446744073709551615" arguments) : Given :=
  { setting := .randomSeed
    value := (18446744073709551615 : Nat)
    arguments
    said := ⟨"18446744073709551615", Count.read_eq_ok_iff.1 rfl, form⟩ }

def outputPath (form : Setting.output.Form "out=.csv" arguments) : Given :=
  { setting := .output
    value := "out=.csv"
    arguments
    said := ⟨"out=.csv", ⟨rfl, by decide, by decide⟩, form⟩ }

end

def mixedForms : List Given :=
  [sevenThreads .namedEquals, startTen .named, outputPath (.letteredEquals rfl), fourPeers .named, lastSeed .named]

def otherForms : List Given :=
  [lastSeed .namedEquals, fourPeers .namedEquals, outputPath (.attached rfl (by decide) (by decide)),
    startTen .namedEquals, sevenThreads (.lettered rfl)]

/-- Values with a sign, with zeros, with an equals sign and at the limit, in two orders and in all forms. -/
theorem mixedForms_given :
    let first :=
      ["--threads=007", "--start", "+10", "-o=out=.csv", "--peers", "4", "--rng-seed", "18446744073709551615"]
    let second :=
      ["--rng-seed=18446744073709551615", "--peers=4", "-oout=.csv", "--start=+10", "-j", "007"]
    (mixedForms.map Given.entry).NodupKeys ∧
      (∃ options, Options.parse first = .ok options ∧
        options.plan =
          { Plan.standard with
            sizes := { Plan.standard.sizes with start := 10 }
            peers := 4
            randomSeed := some 18446744073709551615
            threads := some 7 } ∧
        options.output = "out=.csv") ∧
      Options.parse second = Options.parse first := by
  intro first second
  have distinct : [Setting.threads, .start, .output, .peers, .randomSeed].Nodup := by decide
  have once : (mixedForms.map Given.entry).NodupKeys := distinct
  obtain ⟨taken, others⟩ := parse_given once
  exact ⟨once, taken, others otherForms (List.reverse_perm (mixedForms.map Given.entry))⟩

end Rumour.Command
