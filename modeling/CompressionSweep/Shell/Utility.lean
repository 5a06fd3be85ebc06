import CompressionSweep.Shell.Format
import CompressionSweep.Shell.State

/-! Small programs that scripts call: they print, copy and count bytes, wait, and change files.
Each takes its arguments and gives its exit status. -/

namespace CompressionSweep.Shell.Utility

open Script

def failed (name message : String) : Script Nat := do
  complain (name ++ ": " ++ message)
  return 1

def inQuotes (s : String) : String := "'" ++ s ++ "'"

def number? (s : String) : Option Nat :=
  let cs := s.toList
  if cs.isEmpty || !cs.all Text.isAsciiDigit then none
  else some (cs.foldl (fun n d => n * 10 + (d.toNat - 48)) 0)

/-! Printing. -/

def echo (arguments : List String) : Script Nat := do
  let (newline, words) :=
    match arguments with
    | "-n" :: r => (false, r)
    | r => (true, r)
  let s := String.intercalate " " words
  let (cs, cut) := Format.unescape (s.length + 1) [] s.toList
  let ok ← write 1 (String.ofList cs ++ (if newline && !cut then "\n" else ""))
  if ok then return 0
  complainHere "echo: echo: I/O error"
  return 1

def isEchoOption (s : String) : Bool :=
  match s.toList with
  | '-' :: c :: cs => (c :: cs).all fun c => c == 'n' || c == 'e' || c == 'E'
  | _ => false

/-- Prints its arguments as they are, unless `-e` is given. -/
def plainEcho (arguments : List String) : Script Nat := do
  let options := arguments.takeWhile isEchoOption
  let letters := (String.join options).toList
  let s := String.intercalate " " (arguments.drop options.length)
  let escapes := (letters.filter (fun c => c == 'e' || c == 'E')).getLast? == some 'e'
  let (cs, cut) := if escapes then Format.unescape (s.length + 1) [] s.toList else (s.toList, false)
  let ok ← write 1 (String.ofList cs ++ (if letters.contains 'n' || cut then "" else "\n"))
  if ok then return 0 else failed "echo" "write error: Bad file descriptor"

def printf (arguments : List String) : Script Nat := do
  match if arguments.head? == some "--" then arguments.tail else arguments with
  | [] =>
    complainHere "printf: usage: printf format [arg ...]"
    return 2
  | format :: r =>
    let (cs, complaints) := Format.fill format r
    complaints.forM fun c => complainHere ("printf: " ++ c)
    let ok ← write 1 (String.ofList cs)
    return if complaints.isEmpty && ok then 0 else 1

def yes (arguments : List String) : Script Nat := do
  let text := if arguments.isEmpty then "y" else String.intercalate " " arguments
  let line := toBytes (text ++ "\n")
  let count := match target? (← process) 1 with | some (.collector _) => 500000 | _ => 8192
  if ← writeBytes 1 (List.replicate count line).flatten then stop .stuck
  else failed "yes" "standard output: Bad file descriptor"

def integer? (s : String) : Option Int :=
  match s.toList with
  | '-' :: cs => (number? (String.ofList cs)).map fun n => -(n : Int)
  | _ => (number? s).map fun n => (n : Int)

def seq (arguments : List String) : Script Nat := do
  match arguments.mapM integer? with
  | some [last] => numbers 1 1 last
  | some [first, last] => numbers first 1 last
  | some [first, step, last] => numbers first step last
  | _ => failed "seq" "invalid floating point argument"
where
  numbers (first step last : Int) : Script Nat := do
    if step = 0 then failed "seq" "invalid Zero increment value: '0'"
    else
      let count := if step < 0 then (first - last) / (-step) + 1 else (last - first) / step + 1
      out (String.join ((List.range count.toNat).map fun i =>
        toString (first + step * (i : Nat)) ++ "\n"))
      return 0

/-! Waiting. -/

def duration? (s : String) : Option Nat := do
  let (digits, unit) ←
    match s.toList.getLast? with
    | some 's' => some ((s.dropEnd 1).toString, 1)
    | some 'm' => some ((s.dropEnd 1).toString, 60)
    | some 'h' => some ((s.dropEnd 1).toString, 3600)
    | some 'd' => some ((s.dropEnd 1).toString, 86400)
    | _ => some (s, 1)
  let (negative, d) ← Format.fraction? digits
  if negative then none
  else if 0 ≤ d.exponent then
    return d.coefficient * Nat.pow 10 (min d.exponent.toNat 30) * unit * 1000000000
  else return d.coefficient * unit * 1000000000 / Nat.pow 10 (min (-d.exponent).toNat 400)

def sleep (arguments : List String) : Script Nat := do
  match arguments with
  | [] =>
    complain "sleep: missing operand"
    complain "Try 'sleep --help' for more information."
    return 1
  | arguments =>
    match arguments.find? (fun a => (duration? a).isNone) with
    | some a =>
      complain ("sleep: invalid time interval " ++ inQuotes a)
      complain "Try 'sleep --help' for more information."
      return 1
    | none =>
      pass ((arguments.filterMap duration?).foldr (· + ·) 0)
      return 0

/-! Copying bytes. -/

def maxPieces : Nat := 1000000

/-- Copies a file to the output, piece by piece as it comes. -/
def copyPieces (fuel : Nat) : Script Unit := do
  match fuel with
  | 0 => stop .stuck
  | fuel + 1 =>
    match target? (← process) 0 with
    | some .zeros => stop .stuck
    | _ =>
      match ← readPiece 0 with
      | none => return
      | some b =>
        let _ ← writeBytes 1 b
        copyPieces fuel

/-- The content of a named file, or of the standard input for `-`. -/
def content (program name : String) : Script (Option Bytes) := do
  if name == "-" then return some (← readAll maxPieces 0 [])
  else if name == "/dev/zero" then stop .stuck
  else
    match (← treeHere).read (toText name) with
    | .ok b => return some b
    | .error e =>
      complain (program ++ ": " ++ name ++ ": " ++ e.reason)
      return none

def cat (arguments : List String) : Script Nat := do
  let names := arguments.filter (· != "-u")
  if names.isEmpty then
    copyPieces maxPieces
    return 0
  let mut status := 0
  for name in names do
    if name == "-" then copyPieces maxPieces
    else
      match ← content "cat" name with
      | some b => let _ ← writeBytes 1 b
      | none => status := 1
  return status

/-- The pieces of a text behind each of its line ends. -/
def linesOf (b : Bytes) : List Bytes :=
  let (done, last) := b.foldl
    (fun (done, current) c =>
      if c == 0x0A then ((c :: current).reverse :: done, []) else (done, c :: current))
    (([], []) : List Bytes × Bytes)
  (if last.isEmpty then done else last.reverse :: done).reverse

/-- A number of lines or bytes, from `-n 5`, `-n5`, `-5` or `-c 5`, and the other arguments. -/
def countOf (arguments : List String) : Option (Bool × Nat) × List String :=
  match arguments with
  | "-n" :: n :: r => ((number? n).map (true, ·), r)
  | "-c" :: n :: r => ((number? n).map (false, ·), r)
  | a :: r =>
    match a.toList with
    | '-' :: 'n' :: ds => ((number? (String.ofList ds)).map (true, ·), r)
    | '-' :: 'c' :: ds => ((number? (String.ofList ds)).map (false, ·), r)
    | '-' :: d :: ds => ((number? (String.ofList (d :: ds))).map (true, ·), r)
    | _ => (some (true, 10), a :: r)
  | [] => (some (true, 10), [])

/-- Copies the first lines of the standard input, and reads no more than these. -/
def headLines (fuel count : Nat) : Script Unit := do
  match fuel, count with
  | 0, _ | _, 0 => return
  | fuel + 1, count + 1 =>
    let line ← readLine maxPieces 0 []
    if line.isEmpty then return
    let _ ← writeBytes 1 line
    headLines fuel count

/-- Copies the first bytes of the standard input, and reads no piece behind these. -/
def headBytes (fuel count : Nat) : Script Unit := do
  match fuel, count with
  | 0, _ | _, 0 => return
  | fuel + 1, count =>
    match ← readPiece 0 with
    | none => return
    | some b =>
      let _ ← writeBytes 1 (b.take count)
      headBytes fuel (count - b.length)

def head (arguments : List String) : Script Nat := do
  match countOf arguments with
  | (none, _) => failed "head" "invalid number of lines"
  | (some (lines, n), []) =>
    if lines then headLines n n
    else
      match target? (← process) 0 with
      | some .zeros => let _ ← writeBytes 1 (List.replicate n 0)
      | _ => headBytes maxPieces n
    return 0
  | (some (lines, n), name :: _) =>
    if name == "/dev/zero" && !lines then
      let _ ← writeBytes 1 (List.replicate n 0)
      return 0
    match (← treeHere).read (toText name) with
    | .error e => failed "head" ("cannot open " ++ inQuotes name ++ " for reading: " ++ e.reason)
    | .ok b =>
      let _ ← writeBytes 1 (if lines then ((linesOf b).take n).flatten else b.take n)
      return 0

def tail (arguments : List String) : Script Nat := do
  match countOf arguments with
  | (none, _) => failed "tail" "invalid number of lines"
  | (some (lines, n), names) =>
    match ← content "tail" (names.headD "-") with
    | none => return 1
    | some b =>
      let ls := linesOf b
      let _ ← writeBytes 1
        (if lines then (ls.drop (ls.length - n)).flatten else b.drop (b.length - n))
      return 0

def isSpaceByte (b : UInt8) : Bool := b == 0x20 || (0x09 ≤ b && b ≤ 0x0D)

def countWords (b : Bytes) : Nat :=
  (b.foldl (fun (n, inside) c =>
    if isSpaceByte c then (n, false) else (if inside then n else n + 1, true)) (0, false)).1

def wc (arguments : List String) : Script Nat := do
  let options := (String.join (arguments.filter (·.startsWith "-"))).toList
  let name := (arguments.filter (!·.startsWith "-")).head?
  match ← content "wc" (name.getD "-") with
  | none => return 1
  | some b =>
    let all := !options.any (fun c => c == 'l' || c == 'w' || c == 'c')
    let counts := (if all || options.contains 'l' then [b.count 0x0A] else [])
      ++ (if all || options.contains 'w' then [countWords b] else [])
      ++ (if all || options.contains 'c' then [b.length] else [])
    let width := if counts.length = 1 then 1 else 7
    let cells := counts.map fun n =>
      let s := toString n
      String.ofList (List.replicate (width - s.length) ' ') ++ s
    let label := match name with | some n => " " ++ n | none => ""
    out (String.intercalate " " cells ++ label ++ "\n")
    return 0

def between (a b : Char) : List Char :=
  (List.range (b.toNat + 1 - a.toNat)).map fun i => Char.ofNat (a.toNat + i)

def classOf (name : String) : List Char :=
  match name with
  | "upper" => between 'A' 'Z'
  | "lower" => between 'a' 'z'
  | "digit" => between '0' '9'
  | "alpha" => between 'A' 'Z' ++ between 'a' 'z'
  | "alnum" => between '0' '9' ++ between 'A' 'Z' ++ between 'a' 'z'
  | "space" => between '\t' '\x0d' ++ [' ']
  | _ => []

/-- The characters that a description of a set stands for, in its order. -/
def charactersOf (fuel : Nat) (cs : List Char) : List Char :=
  match fuel, cs with
  | 0, _ | _, [] => []
  | fuel + 1, '[' :: ':' :: r =>
    let name := r.takeWhile (· != ':')
    classOf (String.ofList name) ++ charactersOf fuel (r.drop (name.length + 2))
  | fuel + 1, '\\' :: r =>
    let (piece, rest) := Format.escape r
    (if piece.length = 1 then piece else piece.drop 1 ++ rest.take 1)
      ++ charactersOf fuel (if piece == ['\\'] && r.head? != some '\\' then rest.tail else rest)
  | fuel + 1, a :: '-' :: b :: r => between a b ++ charactersOf fuel r
  | fuel + 1, a :: r => a :: charactersOf fuel r

def codes (s : String) : List UInt8 :=
  (charactersOf (s.length + 1) s.toList).map fun c => c.toNat.toUInt8

/-- Leaves one of each row of equal bytes that are among `set`. -/
def squeeze (set : List UInt8) (b : Bytes) : Bytes :=
  (b.foldl (fun acc c =>
    if acc.head? == some c && set.contains c then acc else c :: acc) ([] : Bytes)).reverse

/-- Replaces, deletes or squeezes bytes. -/
def tr (arguments : List String) : Script Nat := do
  let options := (String.join (arguments.filter (fun a => a.startsWith "-" && a.length > 1))).toList
  let sets := arguments.filter (fun a => !(a.startsWith "-" && a.length > 1))
  let input ← readAll maxPieces 0 []
  let complement := options.contains 'c' || options.contains 'C'
  match sets with
  | [] => failed "tr" "missing operand"
  | first :: more =>
    let a := codes first
    let a := if complement then
        ((List.range 256).map (·.toUInt8)).filter (!a.contains ·) else a
    let result :=
      if options.contains 'd' then input.filter (!a.contains ·)
      else
        match more with
        | [] => squeeze a input
        | second :: _ =>
          let b := codes second
          let mapped := input.map fun c =>
            match a.findIdx? (· == c) with
            | some i => (b[i]?).getD (b.getLastD c)
            | none => c
          if options.contains 's' then squeeze b mapped else mapped
    let _ ← writeBytes 1 result
    return 0

def sort (arguments : List String) : Script Nat := do
  let options := (String.join (arguments.filter (·.startsWith "-"))).toList
  match ← content "sort" (((arguments.filter (!·.startsWith "-")).head?).getD "-") with
  | none => return 1
  | some b =>
    let ls := (linesOf b).map fun l => ofBytes (l.filter (· != 0x0A))
    let key (s : String) : Int :=
      (integer? (String.ofList (s.toList.takeWhile Text.isAsciiDigit))).getD 0
    let before (x y : String) : Bool :=
      if options.contains 'n' then key x < key y || (key x == key y && x ≤ y) else x ≤ y
    let sorted := ls.mergeSort before
    let sorted := if options.contains 'r' then sorted.reverse else sorted
    let sorted := if options.contains 'u' then sorted.eraseReps else sorted
    out (String.join (sorted.map (· ++ "\n")))
    return 0

def uniq (arguments : List String) : Script Nat := do
  match ← content "uniq" (arguments.headD "-") with
  | none => return 1
  | some b =>
    let ls := (linesOf b).map fun l => ofBytes (l.filter (· != 0x0A))
    out (String.join (ls.eraseReps.map (· ++ "\n")))
    return 0

/-! Files. -/

/-- The options of one letter each, and the other arguments. -/
def splitOptions (arguments : List String) : List Char × List String :=
  let isOption (a : String) : Bool := a.startsWith "-" && a != "-"
  match arguments.span (fun a => isOption a && a != "--") with
  | (os, "--" :: r) => ((String.join os).toList, r)
  | (os, r) => ((String.join (os ++ r.filter isOption)).toList, r.filter (!isOption ·))

def removeAll (arguments : List String) : Script Nat := do
  let (options, names) := splitOptions arguments
  let force := options.contains 'f'
  let recursive := options.contains 'r' || options.contains 'R'
  if names.isEmpty && !force then
    complain "rm: missing operand"
    complain "Try 'rm --help' for more information."
    return 1
  let mut status := 0
  for name in names do
    let t ← treeHere
    let path := toText name
    let refuse (reason : String) : Script Unit :=
      complain ("rm: cannot remove " ++ inQuotes name ++ ": " ++ reason)
    match t.stat path with
    | .error .notFound =>
      if !force then
        refuse FileError.notFound.reason
        status := 1
    | .error e =>
      if !force then
        refuse e.reason
        status := 1
    | .ok (_, .directory) =>
      if recursive then
        match t.delete path with
        | .ok t => setTree t
        | .error e =>
          refuse e.reason
          status := 1
      else
        refuse FileError.isADirectory.reason
        status := 1
    | .ok _ =>
      match t.delete path with
      | .ok t => setTree t
      | .error e =>
        refuse e.reason
        status := 1
  return status

def makeDirectory (arguments : List String) : Script Nat := do
  let (options, names) := splitOptions arguments
  let mut status := 0
  for name in names do
    let t ← treeHere
    let path := toText name
    if options.contains 'p' then
      if (t.stat path).isOk && !t.isDirectory path then
        complain ("mkdir: cannot create directory " ++ inQuotes name ++ ": File exists")
        status := 1
      else setTree (t.makeDirectories path)
    else if (t.stat path).isOk then
      complain ("mkdir: cannot create directory " ++ inQuotes name ++ ": File exists")
      status := 1
    else
      match t.locate path with
      | .ok (p, some last) => setTree (t.put (p ++ [last]) .directory)
      | .ok (_, none) => status := 1
      | .error e =>
        complain ("mkdir: cannot create directory " ++ inQuotes name ++ ": " ++ e.reason)
        status := 1
  return status

def removeDirectory (arguments : List String) : Script Nat := do
  let mut status := 0
  for name in (splitOptions arguments).2 do
    let t ← treeHere
    let refuse (reason : String) : Script Unit :=
      complain ("rmdir: failed to remove " ++ inQuotes name ++ ": " ++ reason)
    match t.stat (toText name) with
    | .ok (p, .directory) =>
      if (t.namesIn p).isEmpty then setTree (t.remove p)
      else
        refuse "Directory not empty"
        status := 1
    | .ok _ =>
      refuse FileError.notADirectory.reason
      status := 1
    | .error e =>
      refuse e.reason
      status := 1
  return status

def touch (arguments : List String) : Script Nat := do
  let mut status := 0
  for name in (splitOptions arguments).2 do
    let t ← treeHere
    if !(t.stat (toText name)).isOk then
      match t.write (toText name) [] false with
      | .ok t => setTree t
      | .error e =>
        complain ("touch: cannot touch " ++ inQuotes name ++ ": " ++ e.reason)
        status := 1
  return status

/-- Makes files executable, or takes that from them. -/
def changeMode (arguments : List String) : Script Nat := do
  match (arguments.filter (fun a => a != "-R" && a != "--")) with
  | [] => failed "chmod" "missing operand"
  | mode :: names =>
    let cs := mode.toList
    let bits := (cs.getLast?.map (·.toNat - 48)).getD 0
    let mut status := 0
    for name in names do
      let t ← treeHere
      match t.stat (toText name) with
      | .error e =>
        complain ("chmod: cannot access " ++ inQuotes name ++ ": " ++ e.reason)
        status := 1
      | .ok (p, .file content old) =>
        let executable :=
          if cs.all Text.isAsciiDigit then bits % 2 = 1 || cs.contains '7' || cs.contains '5'
          else if cs.contains 'x' then !cs.contains '-' else old
        setTree (t.put p (.file content executable))
      | .ok _ => pure ()
    return status

/-- Where something called `source` goes when it is put at `target`. -/
def destination (t : Tree) (source target : String) : String :=
  if t.isDirectory target then
    target ++ "/" ++ ((Path.pieces source).getLast?.getD "")
  else target

/-- All that stands at or under one place, put under another. -/
def transfer (t : Tree) (source target : Place) : Tree :=
  let moved := t.entries.filter (fun e => source.isPrefixOf e.1)
  moved.foldl (fun t e => t.put (target ++ e.1.drop source.length) e.2) (t.remove target)

def transferOne (program : String) (removes recursive : Bool) (source target : String) :
    Script Nat := do
  let t ← treeHere
  let path := toText source
  match t.stat path with
  | .error e => failed program ("cannot stat " ++ inQuotes source ++ ": " ++ e.reason)
  | .ok (p, e) =>
    if e == .directory && !recursive then
      complain ("cp: -r not specified; omitting directory " ++ inQuotes source)
      return 1
    match t.locate (destination t path (toText target)) with
    | .ok (q, some last) =>
      let q := q ++ [last]
      if p == q then return 0
      let t := transfer t p q
      setTree (if removes then t.remove p else t)
      return 0
    | .ok (_, none) => return 1
    | .error e =>
      failed program ("cannot create regular file " ++ inQuotes target ++ ": " ++ e.reason)

def transferAll (program : String) (removes : Bool) (arguments : List String) : Script Nat := do
  let (options, names) := splitOptions arguments
  let recursive := removes || options.any (fun c => c == 'r' || c == 'R' || c == 'a')
  match names.getLast? with
  | none => failed program "missing file operand"
  | some target =>
    let mut status := 0
    for source in names.dropLast do
      if (← transferOne program removes recursive source target) != 0 then status := 1
    return status

def list (arguments : List String) : Script Nat := do
  let (options, names) := splitOptions arguments
  let mut status := 0
  for name in (if names.isEmpty then ["."] else names) do
    let t ← treeHere
    match t.stat (toText name) with
    | .error e =>
      complain ("ls: cannot access " ++ inQuotes name ++ ": " ++ e.reason)
      status := 2
    | .ok (p, .directory) =>
      let found := (t.namesIn p).map ofText
      let shown := if options.contains 'a' then "." :: ".." :: found
        else if options.contains 'A' then found
        else found.filter (!·.startsWith ".")
      out (String.join ((shown.mergeSort (fun a b => a ≤ b)).map (· ++ "\n")))
    | .ok _ => out (name ++ "\n")
  return status

def tee (arguments : List String) : Script Nat := do
  let (options, names) := splitOptions arguments
  let input ← readAll maxPieces 0 []
  let _ ← writeBytes 1 input
  for name in names do
    let t ← treeHere
    let old := if options.contains 'a' then ((t.read (toText name)).toOption.getD []) else []
    match t.write (toText name) (old ++ input) false with
    | .ok t => setTree t
    | .error _ => pure ()
  return 0

def baseName (arguments : List String) : Script Nat := do
  let path := arguments.headD ""
  let last := (Path.pieces path).getLast?.getD (if path.isEmpty then "" else "/")
  let ending := (arguments.drop 1).headD ""
  let isLonger := last.endsWith ending && last != ending
  out ((if isLonger then (last.dropEnd ending.length).toString else last) ++ "\n")
  return 0

def directoryName (arguments : List String) : Script Nat := do
  let path := arguments.headD ""
  let names := (Path.pieces path).dropLast
  let start := if Path.isAbsolute path then "/" else ""
  let path := start ++ String.intercalate "/" names
  out ((if path.isEmpty then "." else path) ++ "\n")
  return 0

def workingDirectory : Script Nat := do
  out ("/" ++ ofText (String.intercalate "/" (← process).home) ++ "\n")
  return 0

/-! Conditions. -/

/-- What is wrong with a condition, or its value. -/
abbrev Truth := Except String Bool

def compareNumbers (a b : String) (f : Int → Int → Bool) : Truth :=
  match Arithmetic.signed? a, Arithmetic.signed? b with
  | none, _ => .error ("Illegal number: " ++ a)
  | _, none => .error ("Illegal number: " ++ b)
  | some x, some y => .ok (f x y)

def comparison? (o : String) : Option (String → String → Truth) :=
  match o with
  | "=" => some fun a b => .ok (a == b)
  | "!=" => some fun a b => .ok (a != b)
  | "<" => some fun a b => .ok (decide (a < b))
  | ">" => some fun a b => .ok (decide (b < a))
  | "-eq" => some fun a b => compareNumbers a b fun x y => x == y
  | "-ne" => some fun a b => compareNumbers a b fun x y => x != y
  | "-lt" => some fun a b => compareNumbers a b fun x y => x < y
  | "-le" => some fun a b => compareNumbers a b fun x y => x ≤ y
  | "-gt" => some fun a b => compareNumbers a b fun x y => y < x
  | "-ge" => some fun a b => compareNumbers a b fun x y => y ≤ x
  | _ => none

def property? (t : Tree) (o : String) : Option (String → Bool) :=
  let entry (s : String) : Option Entry := ((t.stat (toText s)).toOption).map (·.2)
  match o with
  | "-n" => some (!·.isEmpty)
  | "-z" => some (·.isEmpty)
  | "-e" | "-r" | "-w" => some fun s => (entry s).isSome
  | "-f" => some fun s => match entry s with | some (.file _ _) | some .program => true | _ => false
  | "-d" => some fun s => entry s == some .directory
  | "-s" => some fun s => match entry s with
    | some (.file c _) => !c.isEmpty | some .directory | some .program => true | _ => false
  | "-x" => some fun s => match entry s with
    | some (.file _ x) => x | some .directory | some .program => true | _ => false
  | "-t" | "-L" | "-h" | "-p" | "-S" | "-b" | "-c" => some fun _ => false
  | _ => none

mutual

def orTest (t : Tree) (fuel : Nat) (ws : List String) : Except String (Bool × List String) := do
  match fuel with
  | 0 => .error "argument expected"
  | fuel + 1 =>
    let (a, rest) ← andTest t fuel ws
    match rest with
    | "-o" :: r =>
      let (b, rest) ← orTest t fuel r
      return (a || b, rest)
    | _ => return (a, rest)

def andTest (t : Tree) (fuel : Nat) (ws : List String) : Except String (Bool × List String) := do
  match fuel with
  | 0 => .error "argument expected"
  | fuel + 1 =>
    let (a, rest) ← notTest t fuel ws
    match rest with
    | "-a" :: r =>
      let (b, rest) ← andTest t fuel r
      return (a && b, rest)
    | _ => return (a, rest)

def notTest (t : Tree) (fuel : Nat) (ws : List String) : Except String (Bool × List String) := do
  match fuel with
  | 0 => .error "argument expected"
  | fuel + 1 =>
    match ws with
    | [] => return (false, [])
    | [a] => return (!a.isEmpty, [])
    | a :: o :: r =>
      match comparison? o, r with
      | some f, b :: rest => return (← f a b, rest)
      | some _, [] => .error (o ++ ": argument expected")
      | none, _ =>
        if a == "!" then
          let (b, rest) ← notTest t fuel (o :: r)
          return (!b, rest)
        else if a == "(" then
          let (b, rest) ← orTest t fuel (o :: r)
          match rest with
          | ")" :: rest => return (b, rest)
          | _ => .error "closing paren expected"
        else
          match property? t a with
          | some f => return (f o, r)
          | none => return (!a.isEmpty, o :: r)

end

def test (name : String) (arguments : List String) : Script Nat := do
  let closed := arguments.getLast? == some "]"
  if name == "[" && !closed then
    complainHere "[: missing ]"
    return 2
  let ws := if name == "[" then arguments.dropLast else arguments
  if ws.isEmpty then return 1
  match orTest (← treeHere) (ws.length * 3 + 8) ws with
  | .ok (b, []) => return if b then 0 else 1
  | .ok (_, rest) =>
    let last := (ws.take (ws.length - rest.length)).getLast?.getD ""
    complainHere (name ++ ": " ++ last ++ ": unexpected operator")
    return 2
  | .error e =>
    complainHere (name ++ ": " ++ e)
    return 2

def find? (name : String) : Option (List String → Script Nat) :=
  match name with
  | "true" => some fun _ => return 0
  | "false" => some fun _ => return 1
  | "echo" => some plainEcho
  | "printf" => some printf
  | "yes" => some yes
  | "seq" => some seq
  | "sleep" => some sleep
  | "cat" => some cat
  | "head" => some head
  | "tail" => some tail
  | "wc" => some wc
  | "tr" => some tr
  | "sort" => some sort
  | "uniq" => some uniq
  | "rm" => some removeAll
  | "mkdir" => some makeDirectory
  | "rmdir" => some removeDirectory
  | "touch" => some touch
  | "chmod" => some changeMode
  | "mv" => some (transferAll "mv" true)
  | "cp" => some (transferAll "cp" false)
  | "ls" => some list
  | "tee" => some tee
  | "basename" => some baseName
  | "dirname" => some directoryName
  | "pwd" => some fun _ => workingDirectory
  | "test" | "[" => some (test name)
  | _ => none

end CompressionSweep.Shell.Utility
