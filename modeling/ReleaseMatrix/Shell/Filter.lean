import ReleaseMatrix.Shell.Utility

/- The programs that make one text out of another. -/
namespace ReleaseMatrix.Shell

def lineBytes : Bytes → List Bytes
  | [] => []
  | b :: rest =>
    if b = 10 then [b] :: lineBytes rest
    else match lineBytes rest with
      | [] => [[b]]
      | line :: more => (b :: line) :: more

inductive Amount where
  | count (n : Nat)
  | start (n : Nat)
  deriving DecidableEq, Repr

structure Selection where
  amount : Amount
  inBytes : Bool
  paths : List String

def amountOf (text : List Char) : Amount :=
  match text with
  | '+' :: digits => .start ((Decimal.natural? 10 digits).getD 1)
  | '-' :: digits => .count ((Decimal.natural? 10 digits).getD 10)
  | digits => .count ((Decimal.natural? 10 digits).getD 10)

def selectionOf : List String → Selection
  | "-n" :: n :: rest => ⟨amountOf n.toList, false, rest⟩
  | "-c" :: n :: rest => ⟨amountOf n.toList, true, rest⟩
  | arg :: rest =>
    match arg.toList with
    | '-' :: 'n' :: text => ⟨amountOf text, false, rest⟩
    | '-' :: 'c' :: text => ⟨amountOf text, true, rest⟩
    | '-' :: d :: text => ⟨amountOf (d :: text), false, rest⟩
    | _ => ⟨.count 10, false, arg :: rest⟩
  | [] => ⟨.count 10, false, []⟩

def Amount.apply {α : Type} (fromEnd : Bool) (items : List α) : Amount → List α
  | .count n => if fromEnd then items.drop (items.length - n) else items.take n
  | .start n => if fromEnd then items.drop (n - 1) else items.take n

def portion (program : String) (fromEnd : Bool) : Utility := fun args s =>
  let selection := selectionOf args
  (inputsOf selection.paths).foldl (fun s path =>
    match selection.amount, path == "/dev/zero" && selection.inBytes with
    | .count n, true => s.emit 1 (List.replicate n 0)
    | amount, _ =>
      match contentOf s path with
      | .ok bytes =>
        let taken := if selection.inBytes then amount.apply fromEnd bytes
          else (amount.apply fromEnd (lineBytes bytes)).flatten
        s.emit 1 taken
      | .error e =>
        report s program
          ("cannot open " ++ quoted path ++ " for reading: " ++ errorText e)) s.done

def wc : Utility := fun args s =>
  let (options, paths) := splitOptions args
  (inputsOf paths).foldl (fun s path =>
    match contentOf s path with
    | .ok bytes =>
      let n := if options.contains 'c' then bytes.length else bytes.count 10
      s.print (Decimal.ofNat n ++ (if path = "-" then "" else " " ++ path) ++ "\n")
    | .error e => report s "wc" (path ++ ": " ++ errorText e)) s.done

def changed (program : String) (paths : List String) (f : Bytes → Bytes) (s : State) : State :=
  match paths.mapM (contentOf s) with
  | .ok contents => (s.emit 1 (f contents.flatten)).done
  | .error e =>
    s.fail 2 (program ++ ": cannot read: " ++ Text.joinWith " " paths ++ ": " ++ errorText e)

def bareLine (line : Bytes) : Bytes := if line.getLast? = some 10 then line.dropLast else line

def dropRepeated : List Bytes → List Bytes
  | a :: b :: rest => if a = b then dropRepeated (b :: rest) else a :: dropRepeated (b :: rest)
  | lines => lines

def sort : Utility := fun args s =>
  let (options, paths) := splitOptions args
  let lines (bytes : Bytes) : List Bytes :=
    let sorted := ((lineBytes bytes).map bareLine).mergeSort fun a b => !decide (b < a)
    let kept := if options.contains 'u' then dropRepeated sorted else sorted
    if options.contains 'r' then kept.reverse else kept
  changed "sort" (inputsOf paths) (fun bytes => (lines bytes).flatMap (· ++ [10])) s

def byteSet (text : String) : Bytes :=
  let rec ranges : Bytes → Bytes
    | a :: 45 :: b :: rest =>
      ((List.range 256).filter fun n => a.toNat ≤ n && n ≤ b.toNat).map Nat.toUInt8 ++ ranges rest
    | a :: rest => a :: ranges rest
    | [] => []
  ranges (unescape false text).bytes

def replacement (source target : Bytes) (b : UInt8) : UInt8 :=
  match source.idxOf? b, target.getLast? with
  | some i, some last => target.getD i last
  | _, _ => b

def tr : Utility := fun args s =>
  match args with
  | ["-d", set] =>
    let dropped := byteSet set
    changed "tr" ["-"] (fun bytes => bytes.filter fun b => !dropped.contains b) s
  | [source, target] =>
    let source := byteSet source
    let target := byteSet target
    changed "tr" ["-"] (fun bytes => bytes.map (replacement source target)) s
  | _ => report s "tr" "missing operand"

def seq : Utility := fun args s =>
  let numbers (first step last : Nat) : String :=
    let count := if last < first then 0 else (last - first) / max step 1 + 1
    String.join ((List.range count).map fun i => Decimal.ofNat (first + i * step) ++ "\n")
  match args.mapM fun a => Decimal.natural? 10 a.toList with
  | some [last] => (s.print (numbers 1 1 last)).done
  | some [first, last] => (s.print (numbers first 1 last)).done
  | some [first, step, last] => (s.print (numbers first step last)).done
  | _ => report s "seq" "invalid argument"

end ReleaseMatrix.Shell
