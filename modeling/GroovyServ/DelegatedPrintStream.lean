import GroovyServ.JavaText
import GroovyServ.SimpleProtocol

/-!
# The print streams that scripts write to

`DynamicDelegatedPrintStream` stands for `System.out` and `System.err` and passes every
call on to the print stream of the session. Its methods are compiled Groovy: a call in
them names a method and gives the values of its arguments, and the method is chosen from
these values at run time. `java.io.PrintStream` is given by what it hands to the stream
under it. Texts of objects, formatted texts and the failures of the stream under it are
parameters.
-/

namespace GroovyServ.Server

inductive Primitive where
  | boolean (b : Bool)
  | char (c : UInt16)
  | int (i : ℤ)
  | long (i : ℤ)
  | float (bits : UInt32)
  | double (bits : UInt64)

variable {ρ ε : Type}

/-- A value at run time; `ref` is the identity of an array, and of any other object. -/
inductive Value (ρ : Type) where
  | null
  | boxed (p : Primitive)
  | string (s : Text)
  | charArray (chars : Text) (ref : ρ)
  | byteArray (bytes : Bytes) (ref : ρ)
  | other (ref : ρ)

/-- What a call can throw by itself, and what the code that it calls can throw. -/
inductive Thrown (ε : Type) where
  | missingMethod
  | nullPointer
  | indexOutOfBounds
  | other (e : ε)

/-- The argument of `print` and `println`: that of an overload chosen at compile time, or one
for which Groovy chooses the overload. -/
inductive Argument (ρ : Type) where
  | primitive (p : Primitive)
  | charArray (s : Option (Text × ρ))
  | string (s : Option Text)
  | object (v : Value ρ)
  | dynamic (v : Value ρ)

inductive PrintOp (ρ : Type) where
  | flush
  | checkError
  | writeByte (b : ℤ)
  | write (buf : Option (Bytes × ρ)) (off len : ℤ)
  | writeArray (buf : Option (Bytes × ρ))
  | print (x : Argument ρ)
  | println (x : Option (Argument ρ))
  | printf (format : Option Text) (args : Value ρ)
  | printfLocale (l : Value ρ) (format : Option Text) (args : Value ρ)
  | format (format : Option Text) (args : Value ρ)
  | formatLocale (l : Value ρ) (format : Option Text) (args : Value ρ)
  | append (csq : Value ρ)
  | appendRange (csq : Value ρ) (start end_ : ℤ)
  | appendChar (c : UInt16)

/-- What a print stream hands on: characters, bytes, or the order to flush. -/
inductive PrintEvent where
  | text (s : Text)
  | newLine
  | byte (b : ℤ)
  | bytes (b : Option Bytes) (off len : ℤ)
  | flush

/-- The parts of the platform that print streams rest on: `String.valueOf` of primitive
values, `toString` of arrays and other objects, Groovy's text of them, `subSequence`,
`java.util.Formatter` with what it has appended before it throws, the default locale, and
whether the stream under a print stream fails. -/
structure JavaRuntime (ρ ε : Type) where
  valueOf : Primitive → Text
  toString : ρ → Except ε Text
  toGroovyString : ρ → Except ε Text
  subSequence : Value ρ → ℤ → ℤ → Except ε Text
  formatted : Value ρ → Option Text → Value ρ → List Text × Option ε
  defaultLocale : Value ρ
  fails : List PrintEvent → PrintEvent → Bool

structure PrintStream where
  events : List PrintEvent := []
  trouble : Bool := false

inductive PrintResult (ε : Type) where
  | returned
  | returnedBoolean (b : Bool)
  | returnedStream
  | threw (e : Thrown ε)

def nullText : Text := asciiText (ascii "null")

namespace Value

variable (java : JavaRuntime ρ ε)

def javaText : Value ρ → Except ε Text
  | null => .ok nullText
  | boxed p => .ok (java.valueOf p)
  | string s => .ok s
  | charArray _ ref | byteArray _ ref | other ref => java.toString ref

/-- What Groovy prints for a value: it chooses `print(char[])` for an array of characters,
`print` of the primitive value for a boxed one, and for other objects its own extension,
which prints `InvokerHelper.toString`. -/
def groovyText : Value ρ → Except ε Text
  | null => .ok nullText
  | boxed p => .ok (java.valueOf p)
  | string s => .ok s
  | charArray chars _ => .ok chars
  | byteArray _ ref | other ref => java.toGroovyString ref

end Value

namespace Argument

def value : Argument ρ → Value ρ
  | primitive p => .boxed p
  | charArray none | string none => .null
  | charArray (some (chars, ref)) => .charArray chars ref
  | string (some s) => .string s
  | object v | dynamic v => v

variable (java : JavaRuntime ρ ε)

def text : Argument ρ → Except (Thrown ε) Text
  | primitive p => .ok (java.valueOf p)
  | charArray none => .error .nullPointer
  | charArray (some (chars, _)) => .ok chars
  | string s => .ok (s.getD nullText)
  | object v => (v.javaText java).mapError .other
  | dynamic v => (v.groovyText java).mapError .other

end Argument

namespace PrintStream

variable (java : JavaRuntime ρ ε)

def emit (s : PrintStream) (event : PrintEvent) : PrintStream :=
  { events := s.events ++ [event], trouble := s.trouble || java.fails s.events event }

def writeText (s : PrintStream) (text : Except (Thrown ε) Text) (after : List PrintEvent)
    (result : PrintResult ε) : PrintResult ε × PrintStream :=
  match text with
  | .error e => (.threw e, s)
  | .ok t => (result, after.foldl (emit java) (s.emit java (.text t)))

/-- An `IOException` of the stream below is kept back, any other exception is not. -/
def writeSlice (s : PrintStream) (buf : Option Bytes) (off len : ℤ) :
    PrintResult ε × PrintStream :=
  let event := .bytes buf off len
  let result :=
    if java.fails s.events event then .returned
    else match buf with
      | none => .threw .nullPointer
      | some b => if (arraySlice b off len).isSome then .returned else .threw .indexOutOfBounds
  (result, s.emit java event)

def writeFormatted (s : PrintStream) (l : Value ρ) (format : Option Text) (args : Value ρ) :
    PrintResult ε × PrintStream :=
  let (pieces, thrown) := java.formatted l format args
  (thrown.elim .returnedStream fun e => .threw (.other e), (pieces.map .text).foldl (emit java) s)

def perform (s : PrintStream) : PrintOp ρ → PrintResult ε × PrintStream
  | .flush => (.returned, s.emit java .flush)
  | .checkError =>
    let s := s.emit java .flush
    (.returnedBoolean s.trouble, s)
  | .writeByte b => (.returned, s.emit java (.byte b))
  | .write buf off len => s.writeSlice java (buf.map Prod.fst) off len
  | .writeArray none => (.threw .nullPointer, s)
  | .writeArray (some (b, _)) => s.writeSlice java (some b) 0 b.length
  | .print x => s.writeText java (x.text java) [] .returned
  | .println none => (.returned, s.emit java .newLine)
  | .println (some x) => s.writeText java (x.text java) [.newLine] .returned
  | .printf format args | .format format args =>
    s.writeFormatted java java.defaultLocale format args
  | .printfLocale l format args | .formatLocale l format args =>
    s.writeFormatted java l format args
  | .append csq => s.writeText java ((csq.javaText java).mapError .other) [] .returnedStream
  | .appendRange csq start end_ =>
    s.writeText java ((java.subSequence csq start end_).mapError .other) [] .returnedStream
  | .appendChar c => s.writeText java (.ok (java.valueOf (.char c))) [] .returnedStream

end PrintStream

inductive PrintMethod where
  | flush
  | checkError
  | write
  | print
  | println
  | printf
  | format
  | append

abbrev GroovyCall (ρ : Type) := PrintMethod × List (Value ρ)

/-- The method of a print stream that Groovy chooses for a call; with `none` it throws a
`MissingMethodException`. Without an argument there is no `append` to choose. -/
def chooseMethod : GroovyCall ρ → Option (PrintOp ρ)
  | (.flush, []) => some .flush
  | (.checkError, []) => some .checkError
  | (.write, [.boxed (.int b)]) => some (.writeByte b)
  | (.write, [.byteArray b ref]) => some (.writeArray (some (b, ref)))
  | (.write, [.null]) => some (.writeArray none)
  | (.write, [.byteArray b ref, .boxed (.int off), .boxed (.int len)]) =>
    some (.write (some (b, ref)) off len)
  | (.write, [.null, .boxed (.int off), .boxed (.int len)]) => some (.write none off len)
  | (.print, [v]) => some (.print (.dynamic v))
  | (.println, []) => some (.println none)
  | (.println, [v]) => some (.println (some (.dynamic v)))
  | (.printf, [.string format, args]) => some (.printf (some format) args)
  | (.printf, [.null, args]) => some (.printf none args)
  | (.printf, [l, .string format, args]) => some (.printfLocale l (some format) args)
  | (.printf, [l, .null, args]) => some (.printfLocale l none args)
  | (.format, [.string format, args]) => some (.format (some format) args)
  | (.format, [.null, args]) => some (.format none args)
  | (.format, [l, .string format, args]) => some (.formatLocale l (some format) args)
  | (.format, [l, .null, args]) => some (.formatLocale l none args)
  | (.append, [.boxed (.char c)]) => some (.appendChar c)
  | (.append, [csq]) => some (.append csq)
  | (.append, [csq, .boxed (.int start), .boxed (.int end_)]) =>
    some (.appendRange csq start end_)
  | _ => none

namespace DynamicDelegatedPrintStream

def bufValue : Option (Bytes × ρ) → Value ρ
  | none => .null
  | some (b, ref) => .byteArray b ref

def stringValue : Option Text → Value ρ
  | none => .null
  | some s => .string s

/-- The call that a method makes of the session's stream. `write(byte[])` is inherited and
calls the form with a range, or throws for `null`. -/
def forward : PrintOp ρ → Option (GroovyCall ρ)
  | .flush => some (.flush, [])
  | .checkError => some (.checkError, [])
  | .writeByte b => some (.write, [.boxed (.int b)])
  | .write buf off len => some (.write, [bufValue buf, .boxed (.int off), .boxed (.int len)])
  | .writeArray none => none
  | .writeArray (some (b, ref)) =>
    some (.write, [.byteArray b ref, .boxed (.int 0), .boxed (.int b.length)])
  | .print x => some (.print, [x.value])
  | .println none => some (.println, [])
  | .println (some x) => some (.println, [x.value])
  | .printf format args => some (.printf, [stringValue format, args])
  | .printfLocale l format args => some (.printf, [l, stringValue format, args])
  | .format format args => some (.format, [stringValue format, args])
  | .formatLocale l format args => some (.format, [l, stringValue format, args])
  | .append _ => some (.append, [])
  | .appendRange csq start end_ => some (.append, [csq, .boxed (.int start), .boxed (.int end_)])
  | .appendChar c => some (.append, [.boxed (.char c)])

variable (java : JavaRuntime ρ ε)

def perform (s : PrintStream) (op : PrintOp ρ) : PrintResult ε × PrintStream :=
  match forward op with
  | none => (.threw .nullPointer, s)
  | some call =>
    match chooseMethod call with
    | none => (.threw .missingMethod, s)
    | some op => s.perform java op

end DynamicDelegatedPrintStream

/-- `print` of an argument writes what Groovy prints for its value. -/
def Argument.Keeps (java : JavaRuntime ρ ε) : Argument ρ → Prop
  | object v => v.javaText java = v.groovyText java
  | charArray none => False
  | _ => True

def PrintOp.Keeps (java : JavaRuntime ρ ε) : PrintOp ρ → Prop
  | append _ => False
  | print x | println (some x) => x.Keeps java
  | _ => True

variable {java : JavaRuntime ρ ε}

theorem Argument.keeps_iff (x : Argument ρ) :
    x.Keeps java ↔ (Argument.dynamic x.value).text java = x.text java := by
  cases x with
  | primitive p => exact iff_of_true trivial rfl
  | charArray s =>
    cases s with
    | none =>
      refine iff_of_false id fun h => ?_
      cases h
    | some s => exact iff_of_true trivial rfl
  | string s => cases s <;> exact iff_of_true trivial rfl
  | object v =>
    have hinj : ∀ t t' : Except ε Text,
        t'.mapError Thrown.other = t.mapError Thrown.other ↔ t = t' := by
      intro t t'
      cases t <;> cases t' <;> simp [Except.mapError, eq_comm]
    exact (hinj _ _).symm
  | dynamic v => exact iff_of_true trivial rfl

namespace PrintStream

theorem emit_events (s : PrintStream) (event : PrintEvent) :
    (s.emit java event).events = s.events ++ [event] := rfl

theorem foldl_emit_events (s : PrintStream) (events : List PrintEvent) :
    (events.foldl (emit java) s).events = s.events ++ events := by
  induction events generalizing s with
  | nil => simp
  | cons event events ih => rw [List.foldl_cons, ih, emit_events, List.append_assoc]; rfl

theorem writeText_eq_iff (s : PrintStream) (t t' : Except (Thrown ε) Text)
    (after : List PrintEvent) :
    s.writeText java t after .returned = s.writeText java t' after .returned ↔ t = t' := by
  refine ⟨fun h => ?_, fun h => by rw [h]⟩
  cases t with
  | error e =>
    cases t' with
    | error e' =>
      cases congrArg Prod.fst h
      rfl
    | ok t' => cases congrArg Prod.fst h
  | ok t =>
    cases t' with
    | error e' => cases congrArg Prod.fst h
    | ok t' =>
      have hevents := congrArg (fun r => r.2.events) h
      simp only [writeText, foldl_emit_events, emit_events, List.append_assoc,
        List.append_cancel_left_eq, List.cons_append, List.cons.injEq] at hevents
      rw [PrintEvent.text.inj hevents.1]

end PrintStream

namespace DynamicDelegatedPrintStream

/-- The stream that delegates does what the session's stream does for exactly the calls
that are kept. -/
theorem perform_eq_iff (s : PrintStream) (op : PrintOp ρ) :
    perform java s op = s.perform java op ↔ op.Keeps java := by
  cases op with
  | flush => exact iff_of_true rfl trivial
  | checkError => exact iff_of_true rfl trivial
  | writeByte b => exact iff_of_true rfl trivial
  | write buf off len => cases buf <;> exact iff_of_true rfl trivial
  | writeArray buf => cases buf <;> exact iff_of_true rfl trivial
  | print x => rw [PrintOp.Keeps, x.keeps_iff]; exact s.writeText_eq_iff _ _ _
  | println x =>
    cases x with
    | none => exact iff_of_true rfl trivial
    | some x => rw [PrintOp.Keeps, x.keeps_iff]; exact s.writeText_eq_iff _ _ _
  | printf format args => cases format <;> exact iff_of_true rfl trivial
  | printfLocale l format args => cases l <;> cases format <;> exact iff_of_true rfl trivial
  | format format args => cases format <;> exact iff_of_true rfl trivial
  | formatLocale l format args => cases l <;> cases format <;> exact iff_of_true rfl trivial
  | append csq =>
    refine iff_of_false (fun h => ?_) id
    have hresult := congrArg Prod.fst h
    rw [PrintStream.perform] at hresult
    cases ht : csq.javaText java <;> rw [ht] at hresult <;> cases hresult
  | appendRange csq start end_ =>
    cases csq with
    | boxed p => cases p <;> exact iff_of_true rfl trivial
    | null | string | charArray | byteArray | other => exact iff_of_true rfl trivial
  | appendChar c => exact iff_of_true rfl trivial

end DynamicDelegatedPrintStream

end GroovyServ.Server
