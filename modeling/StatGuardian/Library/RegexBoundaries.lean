import StatGuardian.Library.Regex

namespace Regex

variable {α : Type*}

def opt (r : Regex α) : Regex α := .alt r .eps

def times (r : Regex α) : Nat → Regex α
  | 0 => .eps
  | n + 1 => .seq r (times r n)

def upTo (r : Regex α) : Nat → Regex α
  | 0 => .eps
  | n + 1 => opt (.seq r (upTo r n))

def repeat_ (r : Regex α) (m n : Nat) : Regex α := .seq (times r m) (upTo r (n - m))

def atLeast (r : Regex α) (m : Nat) : Regex α := .seq (times r m) (.star r)

def concat : List (Regex α) → Regex α
  | [] => .eps
  | [r] => r
  | r :: rest => .seq r (concat rest)

def oneOf : List (Regex α) → Regex α
  | [] => .empty
  | [r] => r
  | r :: rest => .alt r (oneOf rest)

def boundary (word : α → Bool) (before after : List α) : Bool :=
  before.getLast?.any word != after.head?.any word

def splits (w : List α) : List (List α × List α) :=
  (List.range (w.length + 1)).map (fun i => (w.take i, w.drop i))

def searchWord (word : α → Bool) (r : Regex α) (w : List α) : Bool :=
  (splits w).any (fun front => boundary word front.1 front.2 &&
    (splits front.2).any (fun rest =>
      accepts r rest.1 && boundary word (front.1 ++ rest.1) rest.2))

end Regex
