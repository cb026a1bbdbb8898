/-! Changes that a conversion makes, for the person who reads its report. -/

namespace ThemeSection

inductive Change
  | collapsedBlocks (count : Nat) (type : String)
  | injectedBlock (type : String)
  | replacedProducts (count : Nat)
  | extractedSettings (count : Nat)
  | escapedDefaults (count : Nat)
  deriving DecidableEq, Repr

def Change.message : Change → String
  | collapsedBlocks count type =>
    "Converted " ++ toString count ++ " '" ++ type ++ "' element(s) into blocks"
  | injectedBlock type => "Injected block type '" ++ type ++ "'"
  | replacedProducts count =>
    "Replaced " ++ toString count ++ " static product cards with a dynamic product loop"
  | extractedSettings count => "Extracted " ++ toString count ++ " page-level settings"
  | escapedDefaults count => "Escaped quotes in " ++ toString count ++ " schema default(s)"

end ThemeSection
