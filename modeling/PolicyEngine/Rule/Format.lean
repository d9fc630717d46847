import PolicyEngine.Rule.Value

/-!
# Formats

Texts with places for values. A percent sign with a letter is a verb, which stands for the text of
the next argument.

## Main definitions

* `PolicyEngine.Rule.verbText?` — the text of an argument for a verb.
* `PolicyEngine.Rule.format?` — a format with its arguments in place.
-/

namespace PolicyEngine.Rule

/-- What stands before a whole number that is written with a flag. -/
def signText (flag : Option Char) (n : Int) : List Char :=
  if n < 0 then [] else flag.toList

/-- The text of an argument for a verb, with the flag that follows the verb: any value as its text,
a string as itself, or a whole number, before which the flag stands unless it is negative. -/
def verbText? (verb : Char) (flag : Option Char) (v : Value) : Option (List Char) :=
  match verb, v with
  | 'v', v => some v.text.toList
  | 's', .str s => some s.toList
  | 'd', .num d => d.toInt?.map fun n => signText flag n ++ d.text.toList
  | _, _ => none

/-- Put the texts of arguments in place of the verbs of a format. A verb is a percent sign with a
letter; a plus sign or a blank directly behind it belongs to it as a flag. Two percent signs are
one. There have to be as many arguments as verbs. -/
def format? : List Char → List Value → Option (List Char)
  | [], [] => some []
  | [], _ :: _ => none
  | '%' :: '%' :: rest, args => (format? rest args).map ('%' :: ·)
  | '%' :: verb :: '+' :: rest, v :: args => do
    return (← verbText? verb (some '+') v) ++ (← format? rest args)
  | '%' :: verb :: ' ' :: rest, v :: args => do
    return (← verbText? verb (some ' ') v) ++ (← format? rest args)
  | '%' :: verb :: rest, v :: args => do
    return (← verbText? verb none v) ++ (← format? rest args)
  | '%' :: _, _ => none
  | c :: rest, args => (format? rest args).map (c :: ·)

end PolicyEngine.Rule
