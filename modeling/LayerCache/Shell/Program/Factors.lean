import LayerCache.Shell.Program.Options
import LayerCache.Shell.Program.Sizes

/-! Numbers taken apart into primes. -/
namespace LayerCache.Program

namespace Factors

/-- Divides by small numbers, which come in order so that only primes divide; what is left when the
numbers end has no small divisor. -/
def divide : Nat → Nat → Nat → List Nat × Nat
  | 0, _, n => ([], n)
  | fuel + 1, d, n =>
    if n < d * d then ([], n)
    else if n % d = 0 then
      let (primes, rest) := divide fuel d (n / d)
      (d :: primes, rest)
    else divide fuel (if d = 2 then 3 else d + 2) n

def power (m : Nat) : Nat → Nat → Nat → Nat
  | 0, _, _ => 1 % m
  | fuel + 1, a, n =>
    if n = 0 then 1 % m
    else
      let half := power m fuel (a * a % m) (n / 2)
      if n % 2 = 1 then half * a % m else half

def squares (n : Nat) : Nat → Nat → Bool
  | 0, _ => false
  | k + 1, x => x = n - 1 || squares n k (x * x % n)

/-- Whether a base does not show that an odd number has divisors. -/
def passes (n base : Nat) : Bool :=
  let twos := ((List.range (n.log2 + 1)).takeWhile fun k => (n - 1) % Nat.pow 2 (k + 1) = 0).length
  let x := power n (n.log2 + 1) base ((n - 1) / Nat.pow 2 twos)
  x = 1 || squares n twos x

def bases : List Nat := [2, 3, 5, 7, 11, 13, 17, 19, 23, 29, 31, 37, 41]

/-- For numbers without small divisors. -/
def isPrime (n : Nat) : Bool := bases.all (passes n)

/-- Looks for a divisor where two walks through the remainders meet. -/
def meet (n c : Nat) : Nat → Nat → Nat → Option Nat
  | 0, _, _ => none
  | fuel + 1, slow, fast =>
    let step (x : Nat) : Nat := (x * x + c) % n
    let slow := step slow
    let fast := step (step fast)
    let d := Nat.gcd (max slow fast - min slow fast) n
    if d = 1 then meet n c fuel slow fast else if d = n then none else some d

def divisor? (n : Nat) : Option Nat := [1, 3, 5, 7, 11].findSome? fun c => meet n c 4194304 2 2

def split : Nat → Nat → List Nat
  | 0, n => [n]
  | fuel + 1, n =>
    if n < 2 then []
    else if isPrime n then [n]
    else match divisor? n with
      | some d => split fuel d ++ split fuel (n / d)
      | none => [n]

/-- The primes of a number, the least first. -/
def primes (n : Nat) : List Nat :=
  let (small, rest) := divide (5000 + n.log2) 2 n
  let large := if rest < 100000000 then (if rest < 2 then [] else [rest])
    else split (rest.log2 + 1) rest
  small ++ large.mergeSort

/-- Numbers of two words are shown when all others have been. -/
def isWaiting (n : Nat) : Bool := n < Nat.pow 2 127

/-- How often each prime comes. -/
def counted : List Nat → List (Nat × Nat)
  | [] => []
  | p :: rest => match counted rest with
    | (q, n) :: more => if p = q then (q, n + 1) :: more else (p, 1) :: (q, n) :: more
    | [] => [(p, 1)]

def shown (asPowers : Bool) (n : Nat) : List Char :=
  let power (p count : Nat) : List (List Char) :=
    if asPowers then [naturals p ++ (if count = 1 then [] else '^' :: naturals count)]
    else List.replicate count (naturals p)
  let all := if n = 0 then [] else (counted (primes n)).flatMap fun (p, count) => power p count
  naturals n ++ ':' :: all.flatMap (' ' :: ·)

def number? (text : String) : Option Nat :=
  let cs := text.toList.dropWhile (· = ' ')
  Chars.number? (if cs.head? = some '+' then cs.drop 1 else cs)

def usage : Usage where
  bare := "h"
  long := [("exponents", 'h')]

end Factors

def factor (p : Process) : Work Unit :=
  withOptions p Factors.usage fun o => do
    let texts ← if o.operands.isEmpty then do
        let text ← takeInput p "error reading input"
        pure (wordsOf (text.getD []))
      else pure o.operands
    texts.forM fun text => match Factors.number? text with
      | some n => if Factors.isWaiting n then pure () else printLine (Factors.shown (o.has 'h') n)
      | none => complain p (quoted text ++ " is not a valid positive integer")
    for n in texts.filterMap Factors.number? do
      if Factors.isWaiting n then printLine (Factors.shown (o.has 'h') n)

end LayerCache.Program
