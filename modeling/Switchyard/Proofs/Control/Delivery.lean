import Switchyard.Host.Running
import Switchyard.Proofs.Rest.Grammar
import Switchyard.Proofs.Rest.Independence
import Switchyard.Proofs.Rest.Routing
import Switchyard.Proofs.Rest.WrittenPaths

/-! # Where echo orders arrive

An echo order has its text written as one segment of a path, and a written text holds nothing that divides
a path or that must be escaped in one. But a text of one or two dots is a step within the path, escaped or
not, and is taken out on the way.
-/
namespace Switchyard.Control
open Rest
set_option autoImplicit false

namespace Url

/-- The pieces that are left of a path, last one first, behind one more. -/
def keep (kept : List (List Char)) (piece : List Char) : List (List Char) :=
  if isDoubleDot piece then kept.drop 1 else if isDot piece then kept else piece :: kept

section Pieces
variable {pieces : List (List Char)}

theorem exists_append_eq_cons (pieces : List (List Char)) :
    ∃ next others, pieces ++ [[]] = next :: others :=
  List.exists_cons_of_ne_nil (List.append_ne_nil_of_right_ne_nil pieces (List.cons_ne_nil [] []))

theorem resolve_append_nil (kept pieces : List (List Char)) :
    resolve kept (pieces ++ [[]]) = (pieces.foldl keep kept).reverse ++ [[]] := by
  induction pieces generalizing kept with
  | nil => simp [resolve, isDoubleDot, isDot]
  | cons piece pieces ih =>
    -- The last piece is read in another way than the others, and it is the empty one.
    obtain ⟨next, others, hRest⟩ := exists_append_eq_cons pieces
    rw [List.cons_append, hRest, resolve, ← hRest, List.foldl_cons, ih, ih, ih, keep]
    · split
      · rfl
      · split <;> rfl
    · simp

theorem splitOn_closedPieces (hSlash : ∀ piece ∈ pieces, '/' ∉ piece) :
    (closedPieces pieces).splitOn '/' = pieces ++ [[]] := by
  induction pieces with
  | nil => rfl
  | cons piece pieces ih =>
    rw [closedPieces_cons, List.splitOn_append_cons_self,
      List.splitOn_eq_singleton (hSlash piece List.mem_cons_self),
      ih fun other hOther => hSlash other (List.mem_cons_of_mem _ hOther)]
    rfl

theorem flatten_intersperse (pieces : List (List Char)) :
    ((pieces ++ [[]]).intersperse ['/']).flatten = closedPieces pieces := by
  induction pieces with
  | nil => rfl
  | cons piece pieces ih =>
    obtain ⟨next, others, hRest⟩ := exists_append_eq_cons pieces
    rw [hRest] at ih
    rw [List.cons_append, hRest, List.intersperse_cons_cons, List.flatten_cons, List.flatten_cons, ih]
    simp

/-- A character that stands for itself in a path. -/
def IsPlain (c : Char) : Prop := c ∈ '/' :: Percent.writtenChars

theorem isPlain_of_mem_closedPieces (h : ∀ piece ∈ pieces, ∀ c ∈ piece, c ∈ Percent.writtenChars)
    {c : Char} (hc : c ∈ closedPieces pieces) : IsPlain c := by
  obtain ⟨piece, hPiece, hc⟩ := List.mem_flatMap.mp hc
  rcases List.mem_append.mp hc with hc | hc
  · exact List.mem_cons_of_mem _ (h piece hPiece c hc)
  · exact List.mem_cons.mpr (.inl (List.mem_singleton.mp hc))

/-- Whether a character divides a web address, or is dropped from it. -/
def isMark (c : Char) : Bool := ['\t', '\n', '\r', '#', '?', '\\'].contains c

/-- Whether a character is escaped in a path. -/
def isEscaped (c : Char) : Bool := c.toNat ≤ 0x20 ∨ 0x7F ≤ c.toNat ∨ pathEscapes.contains c

theorem IsPlain.unmarked {c : Char} (h : IsPlain c) : isMark c = false ∧ isEscaped c = false := by
  have hAll : ('/' :: Percent.writtenChars).all (fun c => !isMark c && !isEscaped c) = true := by
    rw [Percent.writtenChars_eq]
    decide
  simpa using List.all_eq_true.mp hAll c h

theorem IsPlain.ne {c mark : Char} (h : IsPlain c) (hMark : isMark mark = true) : c ≠ mark := by
  rintro rfl
  simp [h.unmarked.1] at hMark

theorem escape_of_isPlain {text : List Char} (h : ∀ c ∈ text, IsPlain c) : escape pathEscapes text = text := by
  induction text with
  | nil => rfl
  | cons c text ih =>
    obtain ⟨hc, hText⟩ := List.forall_mem_cons.mp h
    rw [escape, List.flatMap_cons, if_neg (of_decide_eq_false hc.unmarked.2)]
    exact congrArg (c :: ·) (ih hText)

theorem mem_foldl_keep {piece : List Char} {kept pieces : List (List Char)}
    (h : piece ∈ pieces.foldl keep kept) : piece ∈ kept ∨ piece ∈ pieces := by
  induction pieces generalizing kept with
  | nil => exact .inl h
  | cons first pieces ih =>
    rcases ih h with hKept | hMem
    · unfold keep at hKept
      split at hKept
      · exact .inl (List.mem_of_mem_drop hKept)
      · split at hKept
        · exact .inl hKept
        · rcases List.mem_cons.mp hKept with rfl | hKept
          · exact .inr List.mem_cons_self
          · exact .inl hKept
    · exact .inr (List.mem_cons_of_mem _ hMem)

/-- Of a plain path all that can change is its segments. -/
theorem target_of_isPlain {path : List Char} (h : ∀ c ∈ '/' :: path, IsPlain c) :
    target (String.ofList ('/' :: path)) = String.ofList
      ('/' :: escape pathEscapes ((resolve [] (path.splitOn '/')).intersperse ['/']).flatten) := by
  have hNe (mark : Char) (hMark : isMark mark = true) : ∀ c ∈ '/' :: path, (c != mark) = true :=
    fun c hc => bne_iff_ne.mpr ((h c hc).ne hMark)
  have hSent : ('/' :: path).filter (fun c => c != '\t' && c != '\n' && c != '\r') = '/' :: path :=
    List.filter_eq_self.mpr fun c hc => by
      rw [hNe '\t' rfl c hc, hNe '\n' rfl c hc, hNe '\r' rfl c hc]
      rfl
  have hFragment : ('/' :: path).takeWhile (· != '#') = '/' :: path :=
    List.takeWhile_eq_self_iff.mpr (hNe _ rfl)
  have hPath : ('/' :: path).takeWhile (· != '?') = '/' :: path :=
    List.takeWhile_eq_self_iff.mpr (hNe _ rfl)
  have hQuery : ('/' :: path).dropWhile (· != '?') = [] := List.dropWhile_eq_nil_iff.mpr (hNe _ rfl)
  have hBack : ('/' :: path).map (fun c => if c = '\\' then '/' else c) = '/' :: path :=
    (List.map_congr_left fun c hc => if_neg ((h c hc).ne rfl)).trans (List.map_id _)
  simp only [target, String.toList_ofList, hSent, hFragment, hPath, hQuery, hBack, List.head?_cons, if_true,
    List.drop_one, List.tail_cons]
  simp [escape]

/-- Of a path of written pieces nothing is changed, but steps are taken out. -/
theorem target_closedPieces (h : ∀ piece ∈ pieces, ∀ c ∈ piece, c ∈ Percent.writtenChars) :
    target (String.ofList ('/' :: closedPieces pieces)) =
      String.ofList ('/' :: closedPieces (pieces.foldl keep []).reverse) := by
  have hPlain : ∀ c ∈ '/' :: closedPieces pieces, IsPlain c :=
    List.forall_mem_cons.mpr ⟨List.mem_cons_self, fun c hc => isPlain_of_mem_closedPieces h hc⟩
  have hSlash : ∀ piece ∈ pieces, '/' ∉ piece := fun piece hPiece hMem => by
    have hWritten := h piece hPiece '/' hMem
    rw [Percent.writtenChars_eq] at hWritten
    revert hWritten
    decide
  have hKept : ∀ piece ∈ (pieces.foldl keep []).reverse, ∀ c ∈ piece, c ∈ Percent.writtenChars := by
    intro piece hPiece
    rcases mem_foldl_keep (List.mem_reverse.mp hPiece) with hNone | hMem
    · cases hNone
    · exact h piece hMem
  rw [target_of_isPlain hPlain, splitOn_closedPieces hSlash, resolve_append_nil, flatten_intersperse,
    escape_of_isPlain fun c hc => isPlain_of_mem_closedPieces hKept hc]

end Pieces
section Dots
variable {piece : List Char}

theorem toLower_written {c : Char} (h : c ∈ Percent.writtenChars) : c.toLower ≠ '.' ∧
    (c.toLower = '%' → c = '%') ∧ (c.toLower = '2' → c = '2') ∧ (c.toLower = 'e' → Percent.Worth c 14) := by
  have hAll : Percent.writtenChars.all (fun c => decide (c.toLower ≠ '.' ∧
      (c.toLower = '%' → c = '%') ∧ (c.toLower = '2' → c = '2') ∧ (c.toLower = 'e' → Percent.Worth c 14))) =
      true := by
    rw [Percent.writtenChars_eq]
    decide
  exact of_decide_eq_true (List.all_eq_true.mp hAll c h)

/-- An escaped dot in letters of any size. -/
theorem stands_escapedDot {low : List Char} (hWritten : ∀ c ∈ piece, c ∈ Percent.writtenChars)
    (h : piece.map Char.toLower = '%' :: '2' :: 'e' :: low) :
    ∃ rest, rest.map Char.toLower = low ∧ (∀ c ∈ rest, c ∈ Percent.writtenChars) ∧
      ∀ bytes, Percent.Stands rest bytes → Percent.Stands piece (46 :: bytes) := by
  obtain ⟨mark, _, rfl, hMark, h⟩ := List.map_eq_cons_iff.mp h
  obtain ⟨high, _, rfl, hHigh, h⟩ := List.map_eq_cons_iff.mp h
  obtain ⟨digit, rest, rfl, hDigit, hRest⟩ := List.map_eq_cons_iff.mp h
  simp only [List.forall_mem_cons] at hWritten
  obtain ⟨hMark', hHigh', hDigit', hOthers⟩ := hWritten
  obtain rfl := (toLower_written hMark').2.1 hMark
  obtain rfl := (toLower_written hHigh').2.2.1 hHigh
  have hWorth := (toLower_written hDigit').2.2.2 hDigit
  exact ⟨rest, hRest, hOthers, fun bytes hBytes => .escape (a := 2) (b := 14) (by decide) hWorth hBytes⟩

theorem no_dot {low : List Char} (hWritten : ∀ c ∈ piece, c ∈ Percent.writtenChars) :
    piece.map Char.toLower ≠ '.' :: low := by
  intro h
  obtain ⟨c, rest, rfl, hc, -⟩ := List.map_eq_cons_iff.mp h
  exact (toLower_written (hWritten c List.mem_cons_self)).1 hc

theorem stands_of_isDot (hWritten : ∀ c ∈ piece, c ∈ Percent.writtenChars) (h : isDot piece = true) :
    Percent.Stands piece [46] := by
  simp only [isDot, List.any_cons, List.any_nil, Bool.or_false, Bool.or_eq_true, beq_iff_eq] at h
  rcases h with hDot | hDot
  · exact (no_dot hWritten hDot).elim
  · obtain ⟨rest, hRest, -, hStands⟩ := stands_escapedDot hWritten hDot
    obtain rfl := List.map_eq_nil_iff.mp hRest
    exact hStands [] .nil

theorem stands_of_isDoubleDot (hWritten : ∀ c ∈ piece, c ∈ Percent.writtenChars)
    (h : isDoubleDot piece = true) : Percent.Stands piece [46, 46] := by
  simp only [isDoubleDot, List.any_cons, List.any_nil, Bool.or_false, Bool.or_eq_true, beq_iff_eq] at h
  rcases h with hDots | hDots | hDots | hDots
  · exact (no_dot hWritten hDots).elim
  · exact (no_dot hWritten hDots).elim
  · obtain ⟨rest, hRest, hOthers, -⟩ := stands_escapedDot hWritten hDots
    exact (no_dot hOthers hRest).elim
  · obtain ⟨rest, hRest, hOthers, hStands⟩ := stands_escapedDot hWritten hDots
    obtain ⟨_, hLast, -, hSecond⟩ := stands_escapedDot hOthers hRest
    obtain rfl := List.map_eq_nil_iff.mp hLast
    exact hStands [46] (hSecond [] .nil)

end Dots
end Url

section Text
variable {text : String}

theorem spells_encode (text : String) : Spells (Percent.encode text).toList text := Percent.stands_encode text

/-- Of all texts those of one and of two dots are written as steps within a path. -/
theorem isDot_encode_iff : Url.isDot (Percent.encode text).toList = true ↔ text = "." := by
  constructor
  · intro h
    have hDot : Spells (Percent.encode text).toList "." :=
      Url.stands_of_isDot (fun _ => Percent.mem_writtenChars_of_mem_encode) h
    exact Spells.unique (spells_encode text) hDot
  · rintro rfl
    rw [Percent.toList_encode]
    decide

theorem isDoubleDot_encode_iff : Url.isDoubleDot (Percent.encode text).toList = true ↔ text = ".." := by
  constructor
  · intro h
    have hDots : Spells (Percent.encode text).toList ".." :=
      Url.stands_of_isDoubleDot (fun _ => Percent.mem_writtenChars_of_mem_encode) h
    exact Spells.unique (spells_encode text) hDots
  · rintro rfl
    rw [Percent.toList_encode]
    decide

/-- The segment that a text is written as. -/
def writtenSegment (text : String) (hSome : text ≠ "") : Segment where
  raw := Percent.encode text
  text
  raw_ne_nil := (writtenAs_encode text).toList_ne_nil hSome
  raw_chars _ := (writtenAs_encode text).isSegmentChar
  decodes := decodeText?_eq_some_iff.mpr (spells_encode text)

/-- The request that an echo order for a text arrives as. -/
def arrival (text : String) (hSome : text ≠ "") : Request where
  method := .post
  segments :=
    if text = ".." then []
    else if text = "." then EchoRequest.binding.segments
    else EchoRequest.binding.segments ++ [writtenSegment text hSome]

theorem trimSlashes_of_slashes {base : String} (h : ∀ c ∈ base.toList, c = '/') :
    Command.trimSlashes base = "" := by
  have hAll : base.toList.reverse.dropWhile (· == '/') = [] :=
    List.dropWhile_eq_nil_iff.mpr fun c hc => beq_iff_eq.mpr (h c (List.mem_reverse.mp hc))
  rw [Command.trimSlashes, hAll]
  rfl

/-- Behind the host of the server there may be slashes. -/
theorem target_echo {base : String} (hBase : ∀ c ∈ base.toList, c = '/') (hSome : text ≠ "") :
    (Command.echo text).target base = (arrival text hSome).rawPath := by
  have hPath : Command.trimSlashes base ++ (Command.echo text).path = String.ofList
      ('/' :: closedPieces ["utf8string".toList, (Percent.encode text).toList]) := by
    refine String.ext ?_
    rw [trimSlashes_of_slashes hBase]
    simp [Command.path]
  have hName : "utf8string".toList.all (Percent.writtenChars.contains ·) = true := by
    rw [Percent.writtenChars_eq]
    decide
  have hWritten : ∀ piece ∈ ["utf8string".toList, (Percent.encode text).toList],
      ∀ c ∈ piece, c ∈ Percent.writtenChars := by
    refine List.forall_mem_cons.mpr ⟨fun c hc => ?_, List.forall_mem_singleton.mpr fun c hc => ?_⟩
    · exact List.contains_iff_mem.mp (List.all_eq_true.mp hName c hc)
    · exact Percent.mem_writtenChars_of_mem_encode hc
  have hFirst : Url.keep [] "utf8string".toList = ["utf8string".toList] := by decide
  -- Only the second piece can be a step, and only two texts are written as one.
  refine String.ext ?_
  rw [Command.target, hPath, Url.target_closedPieces hWritten, Request.toList_rawPath, String.toList_ofList,
    List.foldl_cons, List.foldl_cons, List.foldl_nil, hFirst, Url.keep]
  simp only [isDoubleDot_encode_iff, isDot_encode_iff, Request.pieces, arrival]
  split
  · rfl
  · split <;> rfl

end Text

end Switchyard.Control

namespace Switchyard.Host
open Rest Control
set_option autoImplicit false

/-- A web address that ends with its host, but for slashes. -/
def EndsWithHost (url : String) : Prop :=
  ∃ scheme host slashes : String, url = scheme ++ "://" ++ host ++ slashes ∧ ':' ∉ scheme.toList ∧
    host ≠ "" ∧ (∀ c ∈ host.toList, c ∉ ['/', '\\', '?', '#']) ∧ ∀ c ∈ slashes.toList, c = '/'

namespace Order

/-- The head of the request that carries out an order. -/
def head (order : Order) (headers : List (String × String)) : Head where
  method := order.command.method.name
  target := .parse (order.command.target order.base)
  headers

theorem slashes_of_endsWithHost {order : Order} (h : EndsWithHost order.url) :
    ∀ c ∈ order.base.toList, c = '/' := by
  obtain ⟨scheme, host, slashes, hUrl, hScheme, -, hHost, hSlashes⟩ := h
  have hBehind : order.url.toList.dropWhile (· != ':') =
      ':' :: '/' :: '/' :: (host.toList ++ slashes.toList) := by
    have hPlain : ∀ c ∈ scheme.toList, (c != ':') = true := fun c hc =>
      bne_iff_ne.mpr fun hEq => hScheme (hEq ▸ hc)
    simp [hUrl, List.append_assoc, List.dropWhile_append_of_pos hPlain]
  have hPath : (host.toList ++ slashes.toList).dropWhile (fun c => c != '/' && c != '?' && c != '#') =
      slashes.toList := by
    have hUnmarked : ∀ c ∈ host.toList, (c != '/' && c != '?' && c != '#') = true := fun c hc => by
      have hNone := hHost c hc
      simp_all
    rw [List.dropWhile_append_of_pos hUnmarked]
    cases hList : slashes.toList with
    | nil => rfl
    | cons c rest => simp [hSlashes c (hList ▸ List.mem_cons_self)]
  have hBase : order.base = slashes := by
    simp [Order.base, hBehind, hPath]
  rwa [hBase]

theorem request_head {order : Order} {text : String} (hUrl : EndsWithHost order.url)
    (hCommand : order.command = .echo text) (hSome : text ≠ "") (headers : List (String × String)) :
    (order.head headers).request = .ok (arrival text hSome) := by
  have hTarget : order.command.target order.base = (arrival text hSome).rawPath := by
    rw [hCommand, target_echo (slashes_of_endsWithHost hUrl) hSome]
  have hHead : (arrival text hSome).rawPath.toList.head? = some '/' := by
    rw [Request.toList_rawPath]
    rfl
  have hPath : (Target.parse (arrival text hSome).rawPath).path = (arrival text hSome).rawPath := by
    unfold Target.parse
    rw [if_pos hHead]
    exact String.ext (String.toList_ofList.trans (Request.pathPart_rawPath _))
  have hMethod : order.command.method = .post := by rw [hCommand]; rfl
  rw [Head.request, head, hTarget, hPath, hMethod, Request.ofParts_of_known]
  exact Request.ofTarget_rawPath (arrival text hSome)

end Order

namespace Running
variable {s : Config.Settings} {binder : Net.Binder} {network : Net.Network} {application : Application}
  {r : Running}

/-- The control server as its handlers know it. -/
def controlHandle (s : Config.Settings) : ServerHandle State := ⟨s.control.name, State.stop⟩

theorem dispatcher_of_ofSettings {s : Config.ControlSettings} {stop : State → State}
    {handlers : List (Handler State)} {control : Rest.Server Bindings State}
    (h : Rest.Server.ofSettings s stop handlers = .ok control) :
    Dispatcher.new ⟨s.name, stop⟩ handlers = .ok control.dispatcher := by
  unfold Rest.Server.ofSettings Rest.Server.new at h
  split at h
  · cases h
  · split at h
    · cases h
      assumption
    · cases h

theorem dispatcher_of_start (h : start s binder network application = .ok r) :
    Dispatcher.new (controlHandle s) (handlers s network application (Component.ofSettings s application)) =
      .ok r.control.dispatcher := by
  simp only [start, bind, Except.bind] at h
  split at h
  · cases h
  · rename_i control hControl
    split at h
    · cases h
    · split at h
      · cases h
      · rename_i hStarted
        cases h
        have hNew := dispatcher_of_ofSettings (mapError_eq_ok_iff.mp hControl)
        exact hNew.trans (congrArg (Except.ok ·.2.dispatcher) hStarted)

theorem dispatcher_serve (r : Running) (http : HttpRequest) :
    (r.serve http).2.control.dispatcher = r.control.dispatcher := by
  let x : Exchange Bindings State :=
    { assembler := .empty, dispatcher := r.control.dispatcher, state := r.state, afterwards := [], metrics := [] }
  change (x.serve http).2.dispatcher = x.dispatcher
  rw [Exchange.serve, Exchange.assemble_eq (x := x) rfl]
  cases http.verdict with
  | emit assembled =>
    simp only [Exchange.respond, Exchange.dispatch]
    split <;> rfl
  | reject | fatal | pending | «continue» => rfl

theorem dispatcher_serving (r : Running) (served : List HttpRequest) :
    (served.foldl (fun r http => (r.serve http).2) r).control.dispatcher = r.control.dispatcher := by
  induction served generalizing r with
  | nil => rfl
  | cons http served ih => exact (ih _).trans (r.dispatcher_serve http)

end Running

section Routing
variable {s : Config.Settings} {network : Net.Network} {component : Component} {server : ServerHandle State}
  {d : Dispatcher Bindings State} {text : String} (hSome : text ≠ "")

theorem find?_arrival (hNew : Dispatcher.new server (handlers s network .initiator component) = .ok d)
    (hDots : text ≠ "..") : d.find? (arrival text hSome) = some ((echoHandler s network).joined server) := by
  have hMem : echoHandler s network ∈ handlers s network .initiator component := List.mem_cons_self
  refine (Dispatcher.find?_of_isLongestPrefix hNew hMem ⟨List.mem_map_of_mem hMem, ?_, ?_⟩).2
  · change EchoRequest.binding.isPrefixOf (arrival text hSome) = true
    rw [arrival, if_neg hDots]
    split <;> simp [Request.isPrefixOf, EchoRequest.binding]
  · have hDepth : ∀ handler ∈ handlers s network .initiator component, handler.binding.depth = 1 :=
      List.forall_mem_cons.mpr ⟨rfl, List.forall_mem_singleton.mpr rfl⟩
    intro other hOther hPrefix
    obtain ⟨handler, hHandler, rfl⟩ := List.mem_map.mp hOther
    exact Nat.le_of_eq ((hDepth handler hHandler).trans (hDepth _ hMem).symm)

theorem find?_arrival_dots (hNew : Dispatcher.new server (handlers s network .initiator component) = .ok d)
    (hDots : text = "..") : d.find? (arrival text hSome) = none := by
  subst hDots
  refine Dispatcher.find?_of_no_prefix hNew ?_
  exact List.forall_mem_cons.mpr ⟨rfl, List.forall_mem_singleton.mpr rfl⟩

theorem arguments_arrival (hDots : text ≠ "..") (server : ServerHandle State) :
    ((echoHandler s network).joined server).arguments (arrival text hSome) =
      if text = "." then [] else [text] := by
  change (arrival text hSome).nodesAfter 1 = _
  unfold Request.nodesAfter arrival
  rw [if_neg hDots]
  split <;> rfl

theorem handle_of_no_arguments {server : ServerHandle State} {request : Request}
    (hNone : ((echoHandler s network).joined server).arguments request = []) (state : State) :
    ((echoHandler s network).joined server).handle request state =
      (.error (EchoRequest.argumentsRefused EchoRequest.binding), state) := by
  let h := (echoHandler s network).joined server
  let client : EchoClient State := .pooled network s.clientConnectTimeout State.client State.withClient
  have hAnswer : EchoRequest.answer client ⟨s.responseTimeout, s.initiator.validateResponse⟩
      (h.context request) state = (.failure (EchoRequest.argumentsRefused EchoRequest.binding), state) := by
    unfold EchoRequest.answer
    rw [show (h.context request).arguments = [] from hNone]
    rfl
  exact congrArg (fun (ending, state) => (h.settle ending, state)) hAnswer

end Routing

/-- An echo order is carried out by a request that the initiator takes for the echo handler with the text
as its one argument, whatever it has served before, unless the text is one dot or two. Then the request
has lost its argument or its whole path. -/
theorem echo_orders_arrive_but_for_dots {s : Config.Settings} {binder : Net.Binder} {network : Net.Network}
    {r : Running} (hStart : Running.start s binder network .initiator = .ok r) (served : List HttpRequest)
    {order : Order} {text : String} (hUrl : EndsWithHost order.url) (hCommand : order.command = .echo text)
    (hSome : text ≠ "") (headers : List (String × String)) :
    let d := (served.foldl (fun r http => (r.serve http).2) r).control.dispatcher
    let h := (echoHandler s network).joined (Running.controlHandle s)
    ∃ request, (order.head headers).request = .ok request ∧ h.binding = EchoRequest.binding ∧
      (text ∉ [".", ".."] ↔ d.find? request = some h ∧ h.arguments request = [text]) ∧
      (text = "." → d.find? request = some h ∧ h.arguments request = [] ∧ ∀ state,
        d.dispatch request state = (.error (EchoRequest.argumentsRefused EchoRequest.binding), state)) ∧
      (text = ".." → d.find? request = none ∧ ∀ state,
        d.dispatch request state = (.error (.bindingNotFound "POST /"), state)) := by
  intro d h
  have hNew : Dispatcher.new (Running.controlHandle s)
      (handlers s network .initiator (.ofSettings s .initiator)) = .ok d :=
    (Running.dispatcher_of_start hStart).trans (congrArg Except.ok (r.dispatcher_serving served).symm)
  have hActive : d.active = true := (Dispatcher.new_eq_ok hNew).2.1
  refine ⟨arrival text hSome, Order.request_head hUrl hCommand hSome headers, rfl, ⟨fun hPlain => ?_, ?_⟩, ?_, ?_⟩
  · obtain ⟨hDot, hDots⟩ : text ≠ "." ∧ text ≠ ".." := by simpa using hPlain
    refine ⟨find?_arrival hSome hNew hDots, ?_⟩
    rw [arguments_arrival hSome hDots, if_neg hDot]
  · rintro ⟨hFound, hArguments⟩ hMem
    rcases List.mem_pair.mp hMem with rfl | rfl
    · rw [arguments_arrival hSome (by decide)] at hArguments
      cases hArguments
    · rw [find?_arrival_dots hSome hNew rfl] at hFound
      cases hFound
  · rintro rfl
    have hFound := find?_arrival hSome hNew (by decide)
    have hArguments : h.arguments (arrival "." hSome) = [] := arguments_arrival hSome (by decide) _
    refine ⟨hFound, hArguments, fun state => ?_⟩
    simp only [Dispatcher.dispatch, hActive, hFound, Bool.not_true, Bool.false_eq_true, if_false]
    exact handle_of_no_arguments hArguments state
  · rintro rfl
    have hNone := find?_arrival_dots hSome hNew rfl
    refine ⟨hNone, fun state => ?_⟩
    simp only [Dispatcher.dispatch, hActive, hNone, Bool.not_true, Bool.false_eq_true, if_false]
    rfl

namespace Sample

def order (text : String) : Order := { url := defaultUrl, command := .echo text }

theorem endsWithHost (text : String) : EndsWithHost (order text).url := by
  have hUrl : defaultUrl = "http" ++ "://" ++ "127.0.0.1:8081" ++ "" := by decide
  have hHost : "127.0.0.1:8081".toList.all (fun c => !(['/', '\\', '?', '#'].contains c)) = true := by
    decide
  refine ⟨"http", "127.0.0.1:8081", "", hUrl, by decide, by decide, fun c hc => ?_, by simp⟩
  simpa using List.all_eq_true.mp hHost c hc

theorem exists_running : ∃ r, Running.start {} .isolated .isolated .initiator = .ok r :=
  exists_ok_of_toBool (by decide +kernel)

end Sample

theorem echo_orders_arrive_but_for_dots_slashed : ∃ r,
    Running.start {} .isolated .isolated .initiator = .ok r ∧
    ∃ request, ((Sample.order "ü/..").head []).request = .ok request ∧
      r.control.dispatcher.find? request =
        some ((echoHandler {} .isolated).joined (Running.controlHandle {})) ∧
      ((echoHandler {} .isolated).joined (Running.controlHandle {})).arguments request = ["ü/.."] := by
  obtain ⟨r, hStart⟩ := Sample.exists_running
  obtain ⟨request, hRequest, -, hArrives, -⟩ := echo_orders_arrive_but_for_dots hStart []
    (Sample.endsWithHost "ü/..") rfl (by decide) []
  exact ⟨r, hStart, request, hRequest, hArrives.mp (by decide)⟩

/-- Orders for one and for two dots are sent for paths that have lost them. -/
theorem dots_do_not_arrive :
    (Sample.order ".").command.requestLine (Sample.order ".").base = "POST /utf8string/ HTTP/1.1" ∧
    (Sample.order "..").command.requestLine (Sample.order "..").base = "POST / HTTP/1.1" ∧
    ¬∀ (s : Config.Settings) (binder : Net.Binder) (network : Net.Network) (r : Running) (order : Order)
      (text : String), Running.start s binder network .initiator = .ok r → EndsWithHost order.url →
      order.command = .echo text → text ≠ "" →
      ∃ request h, (order.head []).request = .ok request ∧ r.control.dispatcher.find? request = some h ∧
        h.binding = EchoRequest.binding ∧ h.arguments request = [text] := by
  refine ⟨by decide +kernel, by decide +kernel, fun hClaim => ?_⟩
  obtain ⟨r, hStart⟩ := Sample.exists_running
  have hSome : "." ≠ "" := by decide
  have hUrl := Sample.endsWithHost "."
  obtain ⟨request, h, hRequest, hFound, -, hArguments⟩ := hClaim _ _ _ r _ "." hStart hUrl rfl hSome
  obtain rfl : arrival "." hSome = request :=
    Except.ok.inj ((Order.request_head hUrl rfl hSome []).symm.trans hRequest)
  have hEcho := find?_arrival hSome (Running.dispatcher_of_start hStart) (by decide)
  obtain rfl := Option.some.inj (hFound.symm.trans hEcho)
  cases (arguments_arrival hSome (by decide) _).symm.trans hArguments

end Switchyard.Host
