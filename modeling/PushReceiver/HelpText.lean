import PushReceiver.ArgumentParser
import PushReceiver.Cpp
import PushReceiver.Library.Unordered

set_option autoImplicit false

namespace PushReceiver.Arguments

def space : WChar := 32

def newline : WChar := 10

-- An insertion under std::setw and std::left. A width that is not above the length changes nothing.
def padRight (width : Int) (text : WString) : WString := text ++ List.replicate (width - text.length).toNat space

def argOptionTakesValueString : WString := wide "<value> "

def helpAndVersionOptionsSectionOpeningString : WString := newline :: wide "Getting help:" ++ [newline]

def normalOptionSectionOpeningString : WString := newline :: wide "Options:" ++ [newline]

-- The casts to int are of each summand on its own.
def sizeOfOptionString (arg : ArgumentOption) : Int :=
  let takesValue := if arg.type = .inputOption then 8 else 0
  let ends := 2 * arg.shortCommands.card + arg.shortCommands.card + arg.longCommands.card + takesValue
  (ascendingLongs arg.longCommands).foldl (fun size command => size + toInt (2 + command.length)) (toInt ends)

def calculateSizeOfOptionStrings (args : List ArgumentOption) : List Int := args.map sizeOfOptionString

def commandsString (arg : ArgumentOption) : WString :=
  (ascendingShorts arg.shortCommands).flatMap (fun c => [minusSign, c, space]) ++
    (ascendingLongs arg.longCommands).flatMap (fun str => wide "--" ++ str ++ [space]) ++
    if arg.type = .inputOption then argOptionTakesValueString else []

def optionString (columnSize : Int) (arg : ArgumentOption) : WString :=
  wide "   " ++ padRight columnSize (commandsString arg) ++
    (if arg.description = [] then [] else wide "  " ++ arg.description) ++ [newline]

-- The sizes are passed to reserve only.
def generateOptionStrings (args : List ArgumentOption) (columnSize : Int) : List WString :=
  args.map (optionString columnSize)

def widest (sizes : List Int) : Int := sizes.foldl (fun widest size => if widest < size then size else widest) 0

-- std::sort by operator< of std::wstring.
def sortStrings (strings : List WString) : List WString := strings.mergeSort fun first second => decide (first ≤ second)

def generateOptionsSubSection (args : List ArgumentOption) (openingString : WString) : WString :=
  let optionCommandsColSize := widest (calculateSizeOfOptionStrings args)
  openingString ++ (sortStrings (generateOptionStrings args optionCommandsColSize)).flatten

def generateUsageSection (parser : ArgumentParser) : WString :=
  wide "Usage: " ++ parser.executableName ++
    (if parser.argumentOptions = [] then [] else wide " [options]") ++
    parser.positionalArgs.flatMap (fun posArg =>
      if posArg.syntaxText = [] then wide " [" ++ posArg.name ++ wide "]" else space :: posArg.syntaxText) ++ [newline]

def generateDescriptionSection (parser : ArgumentParser) : WString :=
  if parser.appDescription = [] then [] else newline :: parser.appDescription ++ [newline]

def positionalString (posArg : PositionalArgument) : WString :=
  if posArg.syntaxText = [] then wide "[" ++ posArg.name ++ wide "]" else posArg.syntaxText

def calculateSizeOfArgumentsString (parser : ArgumentParser) : List Int :=
  parser.positionalArgs.map fun arg =>
    if arg.syntaxText = [] then toInt (arg.name.length + 2) else toInt arg.syntaxText.length

def generatePositionalArgsSection (parser : ArgumentParser) : WString :=
  if parser.positionalArgs = [] then []
  else
    let optionArgsColSize := widest (calculateSizeOfArgumentsString parser)
    newline :: wide "Arguments:" ++ [newline] ++ parser.positionalArgs.flatMap fun arg =>
      wide "   " ++ padRight optionArgsColSize (positionalString arg) ++ wide "   " ++ arg.description ++ [newline]

def isHelpOrVersion (arg : ArgumentOption) : Bool := arg.type = .helpOption || arg.type = .versionOption

def generateOptionsSection (state : Parsing) : WString :=
  let args := state.parser.argumentOptions.map state.options
  let helpAndVersionOptions := args.filter isHelpOrVersion
  let normalOptions := args.filter (!isHelpOrVersion ·)
  (if helpAndVersionOptions = [] then []
    else generateOptionsSubSection helpAndVersionOptions helpAndVersionOptionsSectionOpeningString) ++
  (if normalOptions = [] then [] else generateOptionsSubSection normalOptions normalOptionSectionOpeningString)

def helpText (state : Parsing) : WString :=
  generateUsageSection state.parser ++ generateDescriptionSection state.parser ++
    generatePositionalArgsSection state.parser ++ generateOptionsSection state

theorem sort_strings_perm (first second : List WString) (perm : first.Perm second) : sortStrings first = sortStrings second := by
  apply Unordered.sorted_perm _ _ _ _ second first perm
  · intro a b c below above
    simp only [decide_eq_true_eq] at below above ⊢
    exact List.le_trans below above
  · intro a b
    simpa using List.le_total a b
  · intro a b below above
    simp only [decide_eq_true_eq] at below above
    exact List.le_antisymm below above

theorem sub_section_perm (first second : List ArgumentOption) (perm : first.Perm second) (openingString : WString) :
    generateOptionsSubSection first openingString = generateOptionsSubSection second openingString := by
  have column : widest (calculateSizeOfOptionStrings first) = widest (calculateSizeOfOptionStrings second) :=
    Unordered.widest_perm _ _ (perm.map sizeOfOptionString) 0
  have lines := fun columnSize => sort_strings_perm _ _ (perm.map (optionString columnSize))
  simp only [generateOptionsSubSection, generateOptionStrings, column, lines]

theorem options_section_perm (state : Parsing) (order : List OptionRef) (perm : order.Perm state.parser.argumentOptions) :
    generateOptionsSection (state.reorder order) = generateOptionsSection state := by
  have args : (order.map state.options).Perm (state.parser.argumentOptions.map state.options) := perm.map state.options
  have helps := args.filter isHelpOrVersion
  have normals := args.filter (!isHelpOrVersion ·)
  have noHelps : (order.map state.options).filter isHelpOrVersion = [] ↔
      (state.parser.argumentOptions.map state.options).filter isHelpOrVersion = [] :=
    ⟨fun empty => List.nil_perm.mp (empty ▸ helps), fun empty => List.perm_nil.mp (empty ▸ helps)⟩
  have noNormals : (order.map state.options).filter (!isHelpOrVersion ·) = [] ↔
      (state.parser.argumentOptions.map state.options).filter (!isHelpOrVersion ·) = [] :=
    ⟨fun empty => List.nil_perm.mp (empty ▸ normals), fun empty => List.perm_nil.mp (empty ▸ normals)⟩
  simp only [generateOptionsSection, Parsing.reorder, noHelps, noNormals]
  rw [sub_section_perm _ _ helps, sub_section_perm _ _ normals]

theorem help_text_perm (state : Parsing) (order : List OptionRef) (perm : order.Perm state.parser.argumentOptions) :
    helpText (state.reorder order) = helpText state := by
  have options := options_section_perm state order perm
  have empty : order = [] ↔ state.parser.argumentOptions = [] :=
    ⟨fun empty => List.nil_perm.mp (empty ▸ perm), fun empty => List.perm_nil.mp (empty ▸ perm)⟩
  have usage : generateUsageSection (state.reorder order).parser = generateUsageSection state.parser := by
    simp only [generateUsageSection, Parsing.reorder, empty]
  simp only [helpText, options, usage]
  rfl

end PushReceiver.Arguments
