import Transcript.Session

/-!
Completing at a cursor. Behind the leader the names of commands are completed; behind a command that names a
language its evaluator completes, with columns moved by what stands before; on all other lines the
evaluator of the active language does.
-/
namespace Transcript.Session

variable {α β : Type}

/-- The language that a command evaluates in. -/
def languageOf? : Command → Option Language
  | .lua => some .lua
  | .vim => some .vim
  | _ => none

/-- The word, the white space behind it and the rest of a command line; none unless both are there. -/
def splitArgument? (line : List Char) : Option (List Char × List Char × List Char) :=
  let word := line.takeWhile Char.isAlpha
  let behind := line.dropWhile Char.isAlpha
  let gap := behind.takeWhile Text.isBlank
  if word.isEmpty ∨ gap.isEmpty then none else some (word, gap, behind.dropWhile Text.isBlank)

/-- The completion by the evaluator of a language. -/
def completeIn [Evaluator α] [Evaluator β] (s : Session α β) (language : Language) (text : String) :
    Completion :=
  match language with
  | .lua => Evaluator.complete s.lua text
  | .vim => Evaluator.complete s.vim text

/-- The completion behind the leader. -/
def completeCommand [Evaluator α] [Evaluator β] (s : Session α β) (line : List Char) :
    Completion :=
  if !line.any Text.isBlank then
    { offset := s.leader.utf8Size + 1
      candidates := startingWith line (Command.all.map Command.name) }
  else
    match splitArgument? line with
    | none => .none
    | some (word, gap, rest) =>
      match (Command.lookup? (String.ofList word)).bind languageOf? with
      | none => .none
      | some language =>
        let inner := s.completeIn language (String.ofList rest)
        { inner with
          offset := inner.offset + s.leader.utf8Size + Text.byteLength word + Text.byteLength gap }

/-- The completion of the text before a place in a line. -/
def completeBefore [Evaluator α] [Evaluator β] (s : Session α β) (before : List Char) :
    Completion :=
  match before with
  | [] => s.completeIn s.language ""
  | c :: line =>
    if c = s.leader then s.completeCommand line
    else s.completeIn s.language (String.ofList before)

/-- The completion at a column of a line. Without candidates there is nothing to complete. -/
def completeAt [Evaluator α] [Evaluator β] (s : Session α β) (line : String) (col : Nat) :
    Completion :=
  let completion := s.completeBefore (Text.cutAt col line.toList).1
  if completion.isEmpty then .none else completion

end Transcript.Session
