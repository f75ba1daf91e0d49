import AccountWatch.Number.Numeral
import AccountWatch.Session

/-! The command line. Arguments are taken from left to right and the first that is wrong, or that asks for
the version or for help, decides. Variables of the environment stand in for options that are not given, and a
default stands in for both. -/
namespace AccountWatch.Program

inductive Setting where
  | url
  | address
  | currency
  | fallback
  | refresh
  deriving DecidableEq, Repr

namespace Setting

def all : List Setting := [.url, .address, .currency, .fallback, .refresh]

def name : Setting → String
  | .url => "url"
  | .address => "address"
  | .currency => "currency"
  | .fallback => "fallback-block-count"
  | .refresh => "refresh-secs"

def environmentName : Setting → String
  | .url => "NANOWATCH_URL"
  | .address => "NANOWATCH_ADDRESS"
  | .currency => "NANOWATCH_CURRENCY"
  | .fallback => "NANOWATCH_FALLBACK_BLOCK_COUNT"
  | .refresh => "NANOWATCH_REFRESH_SECS"

def allows : Setting → String → Bool
  | .url, _ | .address, _ | .currency, _ => true
  | .fallback, value | .refresh, value => (Numeral.count? value.toList).isSome

end Setting

structure Options where
  url : String
  address : Option String
  currency : String
  fallback : UInt64
  refreshSeconds : UInt64
  deriving DecidableEq, Repr

inductive Invocation where
  | run (options : Options)
  | version
  | help
  | rejected
  deriving DecidableEq, Repr

abbrev Given := List (Setting × String)

inductive Ending where
  | version
  | help
  | wrong
  deriving DecidableEq, Repr

def assign (given : Given) (setting : Setting) (value : String) : Except Ending Given :=
  if given.any (fun (s, _) => s = setting) || !setting.allows value then .error .wrong
  else .ok (given ++ [(setting, value)])

def isValue (arg : String) : Bool := arg.toList.head? ≠ some '-' || arg = "-"

def setting? (name : List Char) : Option Setting :=
  Setting.all.find? fun s => s.name.toList = name

def splitLong (body : List Char) : List Char × Option String :=
  let value := match body.dropWhile (· ≠ '=') with
    | [] => none
    | _ :: value => some (String.ofList value)
  (body.takeWhile (· ≠ '='), value)

def readArguments (given : Given) : List String → Except Ending Given
  | [] => .ok given
  | arg :: rest =>
      match arg.toList with
      | ['-', '-'] => if rest.isEmpty then .ok given else .error .wrong
      | '-' :: '-' :: body =>
          match splitLong body with
          | (name, attached) =>
              match setting? name, attached with
              | some setting, some value => do readArguments (← assign given setting value) rest
              | some setting, none =>
                  match rest with
                  | [] => .error .wrong
                  | value :: rest =>
                      if isValue value then do readArguments (← assign given setting value) rest
                      else .error .wrong
              | none, none =>
                  if name = "version".toList then .error .version
                  else if name = "help".toList then .error .help
                  else .error .wrong
              | none, some _ => .error .wrong
      | '-' :: 'V' :: _ => .error .version
      | '-' :: 'h' :: _ => .error .help
      | _ => .error .wrong

def readVariables (environment : String → Option String) (given : Given) :
    List Setting → Except Ending Given
  | [] => .ok given
  | setting :: rest => do
      let given ← match given.lookup setting, environment setting.environmentName with
        | none, some value => assign given setting value
        | _, _ => .ok given
      readVariables environment given rest

def defaultUrl : String := "wss://raicast.lightrai.com:443"

def countOf (given : Given) (setting : Setting) (default : UInt64) : UInt64 :=
  ((given.lookup setting).bind fun value => Numeral.count? value.toList).getD default

def Options.ofGiven (given : Given) : Options where
  url := (given.lookup .url).getD defaultUrl
  address := given.lookup .address
  currency := (given.lookup .currency).getD "USD"
  fallback := countOf given .fallback Session.defaultFallback
  refreshSeconds := countOf given .refresh 0

def Invocation.read (args : List String) (environment : String → Option String) : Invocation :=
  match (do readVariables environment (← readArguments [] args) Setting.all : Except Ending Given) with
  | .ok given => .run (.ofGiven given)
  | .error .version => .version
  | .error .help => .help
  | .error .wrong => .rejected

end AccountWatch.Program
