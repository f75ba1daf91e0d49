import AccountWatch.Publisher.Basic

/-! Filters for subscriptions. All but the last only accept or reject; the last accepts every message until one of
the kind comes. -/
namespace AccountWatch.Filter

def ofPredicate (accepts : Message → Bool) : Filter := fun m => if accepts m then .accept else .reject

def everything : Filter := fun _ => .accept

def ofKind (kind : Kind) : Filter := ofPredicate fun m => m.kind = kind

def crashOn (kind : Kind) : Filter := fun m => if m.kind = kind then .crash else .accept

end AccountWatch.Filter
