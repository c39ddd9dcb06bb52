import QronosAgent.Lib.PyText

/-! Names of files in Python's paths of Windows. -/
namespace QronosAgent.Lib

def isDot (c : PyChar) : Bool := c = .scalar '.'

def isSep (c : PyChar) : Bool := c = .scalar '\\' || c = .scalar '/'

def isPlain (c : PyChar) : Bool := !isDot c && !isSep c

/-- `os.path.splitext` of Windows: leading dots of the name begin no extension. -/
def splitext (p : PyStr) : PyStr × PyStr :=
  match p.reverse.dropWhile isPlain with
  | c :: root =>
    if isDot c && (root.takeWhile fun d => !isSep d).any (fun d => !isDot d) then
      (root.reverse, c :: (p.reverse.takeWhile isPlain).reverse)
    else (p, [])
  | [] => (p, [])

theorem splitext_join (p : PyStr) : (splitext p).1 ++ (splitext p).2 = p := by
  unfold splitext
  split
  · rename_i c root hdrop
    split
    · have hjoin : p.reverse.takeWhile isPlain ++ c :: root = p.reverse := by
        rw [← hdrop]
        exact List.takeWhile_append_dropWhile
      have hreverse := congrArg List.reverse hjoin
      simpa using hreverse
    · simp
  · simp

/-- The path begins with `\\?\UNC\`. -/
def isUnc : PyStr → Bool
  | a :: b :: c :: d :: e :: f :: g :: h :: _ =>
    isSep a && isSep b && c = .scalar '?' && isSep d && (e = .scalar 'U' || e = .scalar 'u') &&
      (f = .scalar 'N' || f = .scalar 'n') && (g = .scalar 'C' || g = .scalar 'c') && isSep h
  | _ => false

/-- What comes after the next separator. -/
def afterSep (p : PyStr) : PyStr := (p.dropWhile fun c => !isSep c).drop 1

/-- `ntpath.splitroot`, without the drive and the root. -/
def afterRoot (p : PyStr) : PyStr :=
  match p with
  | a :: b :: rest =>
    -- two more separators end the server and the share
    if isSep a && isSep b then afterSep (afterSep (if isUnc p then p.drop 8 else rest))
    else if isSep a then b :: rest
    else if b = .scalar ':' then
      match rest with
      | c :: rest => if isSep c then rest else c :: rest
      | [] => []
    else p
  | [a] => if isSep a then [] else p
  | [] => []

/-- `ntpath.basename` -/
def basename (p : PyStr) : PyStr :=
  ((afterRoot p).reverse.takeWhile fun c => !isSep c).reverse

end QronosAgent.Lib
