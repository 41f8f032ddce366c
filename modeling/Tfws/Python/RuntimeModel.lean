import Tfws.Python.Models

/-! The standard library with its documented behaviour, as far as the test
vector needs it. -/
namespace Tfws.Python

/-- `urlparse` on texts without parameters, a query, a fragment or user
information: a scheme and a host where the text starts with `https://`, a path
otherwise. -/
def parseOriginText (text : String) : ParseResult :=
  let parts : String × List Char × List Char :=
    if text.toList.take 8 = "https://".toList then
      ("https", (text.toList.drop 8).span (· ≠ '/'))
    else ("", [], text.toList)
  { scheme := parts.1, netloc := String.ofList parts.2.1, path := String.ofList parts.2.2,
    params := "", query := "", fragment := "", username := none, password := none }

/-- The number that the digits write, if they are digits. -/
def number? (digits : List Char) : Option Nat :=
  if digits.all Char.isDigit then
    some (digits.foldl (fun n digit => 10 * n + (digit.toNat - 48)) 0)
  else none

/-- The days from the first of March of the year 0 to a date. -/
def daysTo (year month day : Nat) : Nat :=
  let shifted := if month ≤ 2 then year - 1 else year
  365 * shifted + shifted / 4 - shifted / 100 + shifted / 400 + (153 * ((month + 9) % 12) + 2) / 5 +
    day - 1

/-- `datetime.fromisoformat` on dates with a time to the second and in UTC. On other
texts it only stands for an error. -/
def parseDatetime (text : String) : Except String Datetime :=
  let parsed : Option Int :=
    match text.toList with
    | [y₁, y₂, y₃, y₄, '-', m₁, m₂, '-', d₁, d₂, 'T', h₁, h₂, ':', i₁, i₂, ':', s₁, s₂,
        '+', '0', '0', ':', '0', '0'] => do
        let year ← number? [y₁, y₂, y₃, y₄]
        let month ← number? [m₁, m₂]
        let day ← number? [d₁, d₂]
        let hour ← number? [h₁, h₂]
        let minute ← number? [i₁, i₂]
        let second ← number? [s₁, s₂]
        if 1 ≤ year ∧ 1 ≤ month ∧ month ≤ 12 ∧ 1 ≤ day ∧ day ≤ 28 ∧ hour < 24 ∧ minute < 60 ∧
            second < 60 then
          some (86400 * daysTo year month day + 3600 * hour + 60 * minute + second : Nat)
        else none
    | _ => none
  match parsed with
  | some instant => .ok { tzinfo := true, utc := some instant }
  | none => .error "Invalid isoformat string"

/-- The text of a sorted list of names. -/
def sortedNames (objects : List Object) : Result String :=
  match objects.mapM Object.text? with
  | some names => .ok ("[" ++ ", ".intercalate ((names.mergeSort (· ≤ ·)).map fun name =>
      "'" ++ name ++ "'") ++ "]")
  | none => .error (.typeError "'<' not supported between instances")

/-- The three functions together. They show that the assumptions made of the library
can hold. -/
def Runtime.model : Runtime where
  urlparse text := .ok (parseOriginText text)
  fromisoformat := parseDatetime
  sortedText := sortedNames

end Tfws.Python
