/-
The class path of the platform: the part of the standard library that is known.
-/

import JavaFrontEnd.ClassPath.Hierarchy

namespace JavaFrontEnd.Platform

/-! A vocabulary for stating what the types of the platform offer. Methods are stated without their
owner, which the type that lists them fills in. -/

section

variable (methods : List KnownMethod)

/-! ### Types in signatures -/

def boolean : Ty := .primitive .boolean
def byte : Ty := .primitive .byte
def short : Ty := .primitive .short
def char : Ty := .primitive .char
def int : Ty := .primitive .int
def long : Ty := .primitive .long
def float : Ty := .primitive .float
def double : Ty := .primitive .double

def object : Ty := Ty.object

def string : Ty := Ty.string

def ty (key : String) (arguments : List Ty := []) : Ty := .class key arguments

def serializable : Ty := ty "java.io.Serializable"
def cloneable : Ty := ty "java.lang.Cloneable"
def charSequence : Ty := ty "java.lang.CharSequence"
def throwable : Ty := ty "java.lang.Throwable"
def comparable (type : Ty) : Ty := ty "java.lang.Comparable" [type]
def classLike (type : Ty) : Ty := ty "java.lang.Class" [type]
def iterator (element : Ty) : Ty := ty "java.util.Iterator" [element]
def collection (element : Ty) : Ty := ty "java.util.Collection" [element]
def list (element : Ty) : Ty := ty "java.util.List" [element]
def set (element : Ty) : Ty := ty "java.util.Set" [element]
def map (key value : Ty) : Ty := ty "java.util.Map" [key, value]
def comparator (type : Ty) : Ty := ty "java.util.Comparator" [type]

def E : Ty := .variable "E"
def K : Ty := .variable "K"
def R : Ty := .variable "R"
def T : Ty := .variable "T"
def U : Ty := .variable "U"
def V : Ty := .variable "V"

/-! ### Members -/

def method (name : String) (parameters : List Ty) (result : Ty) : KnownMethod :=
  { name, parameters, result, owner := "" }

def alike (names : List String) (parameters : List Ty) (result : Ty) : List KnownMethod :=
  names.map (method · parameters result)

def overloads (name : String) (parameters : List (List Ty)) (result : Ty) : List KnownMethod :=
  parameters.map (method name · result)

def required (name : String) (parameters : List Ty) (result : Ty) : KnownMethod :=
  { method name parameters result with isAbstract := true }

def constructors (parameters : List (List Ty)) : List KnownMethod :=
  overloads KnownMethod.constructorName parameters .void

def statics : List KnownMethod :=
  methods.map fun method => { method with isStatic := true }

def finals : List KnownMethod :=
  methods.map fun method => { method with isFinal := true }

def deprecated : List KnownMethod :=
  methods.map fun method => { method with isDeprecated := true }

def variadic (method : KnownMethod) : KnownMethod :=
  { method with variadic := true }

def generic (typeParameters : List String) (method : KnownMethod) : KnownMethod :=
  { method with typeParameters }

def value (type : Ty) (name : String) : KnownField :=
  { name, type, isStatic := true, isFinal := true }

def constant (type : Ty) (name : String) : KnownField :=
  { value type name with isConstant := true }

/-! ### Types -/

def classOf (key : String) (typeParameters : List String) (superclass : Ty) (interfaces : List Ty)
    (constructors methods : List KnownMethod) : KnownType :=
  { key, kind := .class, typeParameters, superclass := some superclass, interfaces
    constructors := constructors.map fun constructor => { constructor with owner := key }
    methods := methods.map fun method => { method with owner := key } }

def final (type : KnownType) : KnownType :=
  { type with isFinal := true }

def abstract (type : KnownType) : KnownType :=
  { type with isAbstract := true }

def withFields (fields : List KnownField) (type : KnownType) : KnownType :=
  { type with fields }

def interfaceOf (key : String) (typeParameters : List String) (interfaces : List Ty)
    (methods : List KnownMethod) : KnownType :=
  { key, kind := .interface, isAbstract := true, typeParameters, interfaces
    methods := methods.map fun method => { method with owner := key } }

def annotationOf (key : String) (methods : List KnownMethod) : KnownType :=
  { interfaceOf key [] [ty "java.lang.annotation.Annotation"] methods with
    kind := .annotationType }

end

/-! The classes at the root of the language, its basic interfaces and its annotation types. -/

def calculation (name : String) (operands : Nat) : List KnownMethod :=
  [int, long, float, double].map fun type => method name (.replicate operands type) type

def language : List KnownType :=
  [{ classOf "java.lang.Object" [] object [] (constructors [[]])
      ([method "equals" [object] boolean, method "hashCode" [] int, method "toString" [] string] ++
       finals [method "getClass" [] (classLike .wildcard)] ++ [method "clone" [] object] ++
       deprecated [method "finalize" [] .void] ++
       finals (alike ["notify", "notifyAll", "wait"] [] .void ++ [method "wait" [long] .void])) with
     superclass := none },
   interfaceOf "java.lang.Comparable" ["T"] [] [required "compareTo" [T] int],
   interfaceOf "java.lang.Cloneable" [] [] [],
   interfaceOf "java.lang.Runnable" [] [] [required "run" [] .void],
   interfaceOf "java.lang.AutoCloseable" [] [] [required "close" [] .void],
   interfaceOf "java.lang.Iterable" ["T"] []
     [required "iterator" [] (iterator T),
      method "forEach" [ty "java.util.function.Consumer" [.wildcard]] .void],
   interfaceOf "java.lang.annotation.Annotation" [] [] [],
   annotationOf "java.lang.Override" [], annotationOf "java.lang.Deprecated" [],
   annotationOf "java.lang.SuppressWarnings" [required "value" [] (.array string)],
   annotationOf "java.lang.FunctionalInterface" [], annotationOf "java.lang.SafeVarargs" [],
   final (classOf "java.lang.Class" ["T"] object [serializable] []
     ([method "getName" [] string, method "getSimpleName" [] string,
      method "isInstance" [object] boolean] ++
      alike ["isInterface", "isEnum", "isRecord"] [] boolean ++
      [method "getEnumConstants" [] (.array T), method "cast" [object] T,
      method "getSuperclass" [] (classLike .wildcard)])),
   abstract (classOf "java.lang.Enum" ["E"] object [comparable E, serializable]
     (constructors [[string, int]])
     (finals [method "name" [] string, method "ordinal" [] int] ++
      [method "toString" [] string] ++
      finals [method "equals" [object] boolean, method "hashCode" [] int,
        method "clone" [] object, method "compareTo" [E] int,
        method "getDeclaringClass" [] (classLike E)] ++
      statics [generic ["T"] (method "valueOf" [classLike T, string] T)])),
   abstract (classOf "java.lang.Record" [] object [] (constructors [[]])
     [required "equals" [object] boolean, required "hashCode" [] int,
      required "toString" [] string]),
   final <| withFields
     [value (ty "java.io.PrintStream") "out", value (ty "java.io.PrintStream") "err",
      value (ty "java.io.InputStream") "in"] <|
     classOf "java.lang.System" [] object [] [] <| statics
       [method "currentTimeMillis" [] long, method "nanoTime" [] long,
        method "exit" [int] .void, method "arraycopy" [object, int, object, int, int] .void,
        method "getProperty" [string] string, method "getenv" [string] string,
        method "identityHashCode" [object] int, method "lineSeparator" [] string,
        method "gc" [] .void],
   final <| withFields (["PI", "E"].map (constant double)) <|
     classOf "java.lang.Math" [] object [] [] <| statics <|
       calculation "abs" 1 ++ calculation "max" 2 ++ calculation "min" 2 ++
       [method "sqrt" [double] double, method "pow" [double, double] double,
        method "random" [] double, method "floor" [double] double, method "ceil" [double] double,
        method "round" [double] long, method "round" [float] int] ++
        alike ["sin", "cos", "log", "exp"] [double] double,
   classOf "java.lang.Thread" [] object [ty "java.lang.Runnable"]
     (constructors [[], [ty "java.lang.Runnable"], [ty "java.lang.Runnable", string], [string]])
     (alike ["run", "start", "join", "interrupt"] [] .void ++ [method "isAlive" [] boolean,
      method "getName" [] string, method "setName" [string] .void,
      method "setDaemon" [boolean] .void] ++
      deprecated (finals (alike ["stop", "suspend", "resume"] [] .void)) ++
      statics [method "currentThread" [] (ty "java.lang.Thread"), method "sleep" [long] .void,
        method "yield" [] .void])]

/-! The classes of texts. -/

/-- A class of texts that grow at their end, each of whose changes gives the text itself. -/
def bufferOf (key : String) (parameters appended : List (List Ty)) (methods : List KnownMethod) :
    KnownType :=
  final (classOf key [] object [charSequence, serializable] (constructors parameters)
    (overloads "append" appended (ty key) ++ methods ++
      [method "length" [] int, method "charAt" [int] char,
       method "subSequence" [int, int] charSequence, method "toString" [] string]))

def texts : List KnownType :=
  [interfaceOf "java.lang.CharSequence" [] []
     [required "length" [] int, required "charAt" [int] char,
      required "subSequence" [int, int] charSequence, required "toString" [] string,
      method "isEmpty" [] boolean],
   final (classOf "java.lang.String" [] object [charSequence, comparable string, serializable]
     (constructors [[], [string], [.array char], [.array char, int, int],
       [ty "java.lang.StringBuilder"]])
     ([method "length" [] int, method "charAt" [int] char, method "isEmpty" [] boolean,
       method "isBlank" [] boolean, method "subSequence" [int, int] charSequence,
       method "substring" [int] string, method "substring" [int, int] string,
       method "indexOf" [int] int, method "indexOf" [string] int,
       method "indexOf" [string, int] int, method "lastIndexOf" [int] int,
       method "lastIndexOf" [string] int, method "contains" [charSequence] boolean] ++
       alike ["startsWith", "endsWith", "equalsIgnoreCase"] [string] boolean ++
       [method "compareTo" [string] int, method "compareToIgnoreCase" [string] int,
       method "concat" [string] string, method "replace" [char, char] string,
       method "replace" [charSequence, charSequence] string,
       method "replaceAll" [string, string] string, method "split" [string] (.array string)] ++
       alike ["toLowerCase", "toUpperCase", "trim", "strip"] [] string ++
       [method "repeat" [int] string, method "toCharArray" [] (.array char),
       method "intern" [] string, method "matches" [string] boolean] ++
      statics (overloads "valueOf"
        [[object], [.array char], [boolean], [char], [int], [long], [float], [double]] string ++
       [variadic (method "format" [string, .array object] string),
        variadic (method "join" [charSequence, .array charSequence] string)]))),
   bufferOf "java.lang.StringBuilder" [[], [int], [string]]
     [[object], [string], [charSequence], [.array char], [boolean], [char], [int], [long],
       [float], [double]]
     (overloads "insert" [[int, string], [int, char]] (ty "java.lang.StringBuilder") ++
      [method "reverse" [] (ty "java.lang.StringBuilder"),
       method "deleteCharAt" [int] (ty "java.lang.StringBuilder"),
       method "setLength" [int] .void]),
   bufferOf "java.lang.StringBuffer" [[], [string]]
     [[object], [string], [char], [int], [long], [double]] []]

/-! The classes that wrap primitive values. -/

def wrapperOf (key : String) (type : Ty) (constants : List String)
    (constructors methods : List KnownMethod) : KnownType :=
  final <| withFields (("MAX_VALUE" :: "MIN_VALUE" :: constants).map (constant type)) <|
    classOf key [] (ty "java.lang.Number") [comparable (ty key)] (deprecated constructors)
      ([method "intValue" [] int, method "longValue" [] long, method "floatValue" [] float,
        method "doubleValue" [] double, method "compareTo" [ty key] int] ++ methods)

def wrappers : List KnownType :=
  [abstract (classOf "java.lang.Number" [] object [serializable] (constructors [[]])
     [required "intValue" [] int, required "longValue" [] long, required "floatValue" [] float,
      required "doubleValue" [] double, method "byteValue" [] byte,
      method "shortValue" [] short]),
   wrapperOf "java.lang.Integer" int [] (constructors [[int], [string]])
     (statics (overloads "valueOf" [[int], [string]] (ty "java.lang.Integer") ++
      [method "parseInt" [string] int, method "parseInt" [string, int] int] ++
       alike ["toString", "toHexString", "toBinaryString"] [int] string ++
       alike ["compare", "max", "min", "sum"] [int, int] int)),
   wrapperOf "java.lang.Long" long [] (constructors [[long]])
     (statics
       [method "valueOf" [long] (ty "java.lang.Long"), method "parseLong" [string] long,
        method "toString" [long] string, method "compare" [long, long] int]),
   wrapperOf "java.lang.Short" short [] []
     (statics
       [method "valueOf" [short] (ty "java.lang.Short"), method "parseShort" [string] short]),
   wrapperOf "java.lang.Byte" byte [] []
     (statics [method "valueOf" [byte] (ty "java.lang.Byte"), method "parseByte" [string] byte]),
   wrapperOf "java.lang.Float" float ["NaN"] []
     (method "isNaN" [] boolean :: statics
       [method "valueOf" [float] (ty "java.lang.Float"), method "parseFloat" [string] float,
        method "isNaN" [float] boolean]),
   wrapperOf "java.lang.Double" double ["NaN", "POSITIVE_INFINITY", "NEGATIVE_INFINITY"]
     (constructors [[double]])
     (method "isNaN" [] boolean :: statics
       (overloads "valueOf" [[double], [string]] (ty "java.lang.Double") ++
       [method "parseDouble" [string] double, method "toString" [double] string,
        method "compare" [double, double] int, method "isNaN" [double] boolean])),
   final <| withFields (["TRUE", "FALSE"].map (value (ty "java.lang.Boolean"))) <|
     classOf "java.lang.Boolean" [] object [comparable (ty "java.lang.Boolean"), serializable]
       (deprecated (constructors [[boolean]]))
       ([method "booleanValue" [] boolean, method "compareTo" [ty "java.lang.Boolean"] int] ++
        statics (overloads "valueOf" [[boolean], [string]] (ty "java.lang.Boolean") ++
         [method "parseBoolean" [string] boolean, method "toString" [boolean] string])),
   final <| withFields (["MAX_VALUE", "MIN_VALUE"].map (constant char)) <|
     classOf "java.lang.Character" [] object
       [comparable (ty "java.lang.Character"), serializable] (deprecated (constructors [[char]]))
       ([method "charValue" [] char, method "compareTo" [ty "java.lang.Character"] int] ++
        statics
         ([method "valueOf" [char] (ty "java.lang.Character")] ++
          alike ["isDigit", "isLetter", "isLetterOrDigit", "isWhitespace", "isUpperCase",
            "isLowerCase"] [char] boolean ++
          [method "toUpperCase" [char] char, method "toLowerCase" [char] char,
          method "toString" [char] string, method "getNumericValue" [char] int])),
   final (classOf "java.lang.Void" [] object [] [] [])]

/-! The classes of exceptions and errors. -/

def thrown (superclass : String) (parameters : List (List Ty)) (names : List String) :
    List KnownType :=
  names.map fun name =>
    classOf s!"java.lang.{name}" [] (ty s!"java.lang.{superclass}") [] (constructors parameters) []

def messaged : List (List Ty) := [[], [string]]

def explained : List (List Ty) := [[], [string], [string, throwable]]

/-- A message, or a message and a cause, or a cause: each of them may be missing. -/
def caused : List (List Ty) := explained ++ [[throwable]]

def throwables : List KnownType :=
  [classOf "java.lang.Throwable" [] object [serializable] (constructors caused)
     ([method "getMessage" [] string, method "getLocalizedMessage" [] string,
       method "getCause" [] throwable, method "initCause" [throwable] throwable,
       method "printStackTrace" [] .void,
       method "getStackTrace" [] (.array (ty "java.lang.StackTraceElement"))] ++
      finals [method "addSuppressed" [throwable] .void] ++ [method "toString" [] string]),
   final (classOf "java.lang.StackTraceElement" [] object [serializable] []
     [method "getMethodName" [] string, method "getClassName" [] string,
      method "getLineNumber" [] int])] ++
  thrown "Throwable" caused ["Exception"] ++ thrown "Throwable" explained ["Error"] ++
  thrown "Error" [[], [object]] ["AssertionError"] ++
  thrown "Exception" caused ["RuntimeException"] ++
  thrown "RuntimeException" explained ["IllegalArgumentException", "IllegalStateException"] ++
  thrown "IllegalArgumentException" messaged ["NumberFormatException"] ++
  thrown "RuntimeException" messaged ["NullPointerException", "ArithmeticException",
    "ClassCastException", "UnsupportedOperationException"] ++
  thrown "RuntimeException" (messaged ++ [[int]]) ["IndexOutOfBoundsException"] ++
  thrown "IndexOutOfBoundsException" (messaged ++ [[int]]) ["ArrayIndexOutOfBoundsException"] ++
  (thrown "RuntimeException" [[string, throwable]] ["MatchException"]).map final ++
  thrown "Exception" messaged ["CloneNotSupportedException", "InterruptedException",
    "ReflectiveOperationException"] ++
  thrown "ReflectiveOperationException" messaged ["ClassNotFoundException"]

/-! The classes of byte streams and their interfaces. -/

def printable : List (List Ty) :=
  [[boolean], [char], [int], [long], [float], [double], [.array char], [string], [object]]

def streams : List KnownType :=
  [interfaceOf "java.io.Serializable" [] [] [],
   interfaceOf "java.io.Closeable" [] [ty "java.lang.AutoCloseable"]
     [required "close" [] .void],
   classOf "java.io.IOException" [] (ty "java.lang.Exception") [] (constructors explained) [],
   classOf "java.io.UncheckedIOException" [] (ty "java.lang.RuntimeException") []
     (constructors [[string, ty "java.io.IOException"]]) [],
   abstract (classOf "java.io.InputStream" [] object [ty "java.io.Closeable"] (constructors [[]])
     [required "read" [] int, method "close" [] .void]),
   abstract (classOf "java.io.OutputStream" [] object [ty "java.io.Closeable"]
     (constructors [[]])
     [required "write" [int] .void, method "flush" [] .void, method "close" [] .void]),
   classOf "java.io.PrintStream" [] (ty "java.io.OutputStream") []
     (constructors [[ty "java.io.OutputStream"]])
     (method "write" [int] .void :: overloads "println" ([] :: printable) .void ++
      overloads "print" printable .void ++
      [variadic (method "printf" [string, .array object] (ty "java.io.PrintStream")),
       variadic (method "format" [string, .array object] (ty "java.io.PrintStream")),
       method "flush" [] .void])]

/-! Collections, maps and the utilities around them. -/

def iterated : List KnownMethod :=
  [method "iterator" [] (iterator E), method "size" [] int]

def containerOf (key : String) (typeParameters : List String) (superclass : Ty)
    (interfaces : List Ty) (parameters : List (List Ty)) (methods : List KnownMethod) :
    KnownType :=
  classOf key typeParameters superclass (interfaces ++ [cloneable, serializable])
    (constructors parameters) methods

def collections : List KnownType :=
  [interfaceOf "java.util.Iterator" ["E"] []
     [required "hasNext" [] boolean, required "next" [] E, method "remove" [] .void],
   interfaceOf "java.util.Collection" ["E"] [ty "java.lang.Iterable" [E]]
     [required "size" [] int, required "isEmpty" [] boolean, required "contains" [object] boolean,
      required "add" [E] boolean, required "remove" [object] boolean,
      required "addAll" [collection .wildcard] boolean,
      required "containsAll" [collection .wildcard] boolean,
      required "clear" [] .void, required "toArray" [] (.array object),
      generic ["T"] (required "toArray" [.array T] (.array T)),
      method "stream" [] (ty "java.util.stream.Stream" [E])],
   interfaceOf "java.util.List" ["E"] [collection E]
     ([required "get" [int] E, required "set" [int, E] E, required "add" [int, E] .void,
       required "remove" [int] E, required "indexOf" [object] int,
       required "lastIndexOf" [object] int, required "subList" [int, int] (list E),
       method "sort" [comparator .wildcard] .void] ++
      statics ([method "of" [] (list E), variadic (method "of" [.array E] (list E)),
        method "copyOf" [collection .wildcard] (list E)].map (generic ["E"]))),
   interfaceOf "java.util.Set" ["E"] [collection E]
     (statics ([method "of" [] (set E), variadic (method "of" [.array E] (set E))].map
       (generic ["E"]))),
   interfaceOf "java.util.Queue" ["E"] [collection E]
     [required "offer" [E] boolean, required "poll" [] E, required "peek" [] E],
   interfaceOf "java.util.Deque" ["E"] [ty "java.util.Queue" [E]]
     [required "push" [E] .void, required "pop" [] E, required "addFirst" [E] .void,
      required "addLast" [E] .void],
   interfaceOf "java.util.Comparator" ["T"] []
     ([required "compare" [T, T] int, method "reversed" [] (comparator T)] ++
      statics [generic ["T"] (method "naturalOrder" [] (comparator T))]),
   { interfaceOf "java.util.Map" ["K", "V"] []
      ([required "size" [] int, required "isEmpty" [] boolean, required "get" [object] V,
        required "put" [K, V] V, required "remove" [object] V,
        required "containsKey" [object] boolean, required "containsValue" [object] boolean,
        required "clear" [] .void, required "keySet" [] (set K),
        required "values" [] (collection V),
        required "entrySet" [] (set (ty "java.util.Map$Entry" [K, V])),
        method "getOrDefault" [object, V] V, method "putIfAbsent" [K, V] V] ++
       statics [generic ["K", "V"] (method "of" [] (map K V))]) with
     memberTypes := ["Entry"] },
   { interfaceOf "java.util.Map$Entry" ["K", "V"] []
      [required "getKey" [] K, required "getValue" [] V, required "setValue" [V] V] with
     isStatic := true, outer := some "java.util.Map" },
   abstract (classOf "java.util.AbstractCollection" ["E"] object [collection E]
     (constructors [[]]) []),
   abstract (classOf "java.util.AbstractList" ["E"] (ty "java.util.AbstractCollection" [E])
     [list E] (constructors [[]]) []),
   containerOf "java.util.ArrayList" ["E"] (ty "java.util.AbstractList" [E]) [list E]
     [[], [int], [collection .wildcard]]
     [method "size" [] int, method "isEmpty" [] boolean, method "contains" [object] boolean,
      method "add" [E] boolean, method "add" [int, E] .void, method "remove" [object] boolean,
      method "remove" [int] E, method "get" [int] E, method "set" [int, E] E,
      method "indexOf" [object] int, method "clear" [] .void, method "iterator" [] (iterator E),
      method "ensureCapacity" [int] .void, method "trimToSize" [] .void],
   containerOf "java.util.LinkedList" ["E"] (ty "java.util.AbstractList" [E])
     [list E, ty "java.util.Deque" [E]] [[], [collection .wildcard]] iterated,
   containerOf "java.util.ArrayDeque" ["E"] (ty "java.util.AbstractCollection" [E])
     [ty "java.util.Deque" [E]] [[], [int]] iterated,
   containerOf "java.util.HashMap" ["K", "V"] object [map K V]
     [[], [int], [map .wildcard .wildcard]] [],
   classOf "java.util.LinkedHashMap" ["K", "V"] (ty "java.util.HashMap" [K, V]) []
     (constructors [[]]) [],
   containerOf "java.util.TreeMap" ["K", "V"] object [map K V] [[], [comparator .wildcard]] [],
   containerOf "java.util.HashSet" ["E"] (ty "java.util.AbstractCollection" [E]) [set E]
     [[], [int], [collection .wildcard]] iterated,
   containerOf "java.util.TreeSet" ["E"] (ty "java.util.AbstractCollection" [E]) [set E] [[]]
     iterated,
   final <| classOf "java.util.Objects" [] object [] [] <| statics <|
     [method "equals" [object, object] boolean, variadic (method "hash" [.array object] int),
      method "hashCode" [object] int, method "toString" [object] string,
      method "toString" [object, string] string, method "isNull" [object] boolean,
      method "nonNull" [object] boolean] ++
     (overloads "requireNonNull" [[T], [T, string]] T).map (generic ["T"]),
   classOf "java.util.Arrays" [] object [] [] <| statics <|
     generic ["T"] (variadic (method "asList" [.array T] (list T))) ::
     overloads "toString" ([int, long, char, double, object].map fun type => [.array type])
       string ++
     overloads "sort" ([int, long, char, double, object].map fun type => [.array type]) .void ++
     overloads "fill" [[.array int, int], [.array object, object]] .void ++
     overloads "equals" [[.array int, .array int], [.array object, .array object]] boolean ++
     [method "hashCode" [.array object] int, method "copyOf" [.array int, int] (.array int),
      generic ["T"] (method "copyOf" [.array T, int] (.array T))],
   classOf "java.util.Collections" [] object [] [] <| statics
     [generic ["T"] (method "emptyList" [] (list T)),
      generic ["K", "V"] (method "emptyMap" [] (map K V)),
      generic ["T"] (method "emptySet" [] (set T)),
      generic ["T"] (method "singletonList" [T] (list T)),
      generic ["T"] (method "unmodifiableList" [list .wildcard] (list T)),
      generic ["T"] (method "sort" [list T] .void), method "reverse" [list .wildcard] .void],
   final (classOf "java.util.Optional" ["T"] object [] []
     (statics ((alike ["of", "ofNullable"] [T] (ty "java.util.Optional" [T]) ++
                [method "empty" [] (ty "java.util.Optional" [T])]).map (generic ["T"])) ++
      [method "isPresent" [] boolean, method "isEmpty" [] boolean, method "get" [] T,
       method "orElse" [T] T, method "orElseThrow" [] T])),
   final (classOf "java.util.Scanner" [] object [ty "java.io.Closeable"]
     (constructors [[ty "java.io.InputStream"], [string]])
     ([method "nextLine" [] string, method "next" [] string, method "nextInt" [] int] ++
      alike ["hasNext", "hasNextLine", "hasNextInt"] [] boolean ++ [method "close" [] .void])),
   classOf "java.util.Random" [] object [serializable] (constructors [[], [long]])
     [method "nextInt" [] int, method "nextInt" [int] int, method "nextDouble" [] double,
      method "nextBoolean" [] boolean]]

/-! The interfaces of functions. -/

def functional (name : String) (typeParameters : List String) (method : String)
    (parameters : List Ty) (result : Ty) : KnownType :=
  interfaceOf s!"java.util.function.{name}" typeParameters [] [required method parameters result]

def functions : List KnownType :=
  [interfaceOf "java.util.stream.Stream" ["T"] [] [required "count" [] long],
   functional "Function" ["T", "R"] "apply" [T] R,
   functional "BiFunction" ["T", "U", "R"] "apply" [T, U] R, functional "Supplier" ["T"] "get" [] T,
   functional "Consumer" ["T"] "accept" [T] .void,
   functional "BiConsumer" ["T", "U"] "accept" [T, U] .void,
   functional "Predicate" ["T"] "test" [T] boolean,
   interfaceOf "java.util.function.UnaryOperator" ["T"]
     [ty "java.util.function.Function" [T, T]] [],
   interfaceOf "java.util.function.BinaryOperator" ["T"]
     [ty "java.util.function.BiFunction" [T, T, T]] [],
   functional "IntBinaryOperator" [] "applyAsInt" [int, int] int,
   functional "IntUnaryOperator" [] "applyAsInt" [int] int,
   functional "IntPredicate" [] "test" [int] boolean,
   functional "IntSupplier" [] "getAsInt" [] int, functional "IntFunction" ["R"] "apply" [int] R,
   functional "ToIntFunction" ["T"] "applyAsInt" [T] int]

def types : List KnownType :=
  language ++ texts ++ wrappers ++ throwables ++ streams ++ collections ++ functions

def packages : List String :=
  (types.flatMap fun type => packagesOf type.key).eraseDups

def classPath : ClassPath where
  type? key := types.find? fun type => type.key == key
  hasPackage package := packages.contains package

/-- The beginnings of the names of packages that belong to the platform, of which only a part is
known. -/
def namespaces : List String :=
  ["java.", "javax.", "jdk.", "sun."]

def ownsName (name : String) : Bool :=
  namespaces.any fun beginning => beginning.toList.isPrefixOf name.toList

def implicitTypes : List String :=
  ["Object", "String", "Class", "Enum", "Record", "Number", "Integer", "Long", "Short", "Byte",
   "Character", "Boolean", "Float", "Double", "Void", "CharSequence", "Comparable", "Cloneable",
   "Runnable", "Iterable", "AutoCloseable", "Throwable", "Exception", "RuntimeException", "Error",
   "IllegalArgumentException", "IllegalStateException", "NullPointerException",
   "UnsupportedOperationException", "MatchException", "System", "Math", "StringBuilder",
   "Override", "Deprecated", "SuppressWarnings", "FunctionalInterface", "SafeVarargs"]

end JavaFrontEnd.Platform
