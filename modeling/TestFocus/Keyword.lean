import TestFocus.Text.Basic

namespace TestFocus.Keyword

def linkages : List String :=
  ["private", "internal", "available_externally", "linkonce", "weak", "common", "appending",
   "extern_weak", "linkonce_odr", "weak_odr", "external"]

def isLinkage (word : String) : Bool :=
  linkages.contains word

def preemptions : List String :=
  ["dso_preemptable", "dso_local"]

def isPreemption (word : String) : Bool :=
  preemptions.contains word

def visibilities : List String :=
  ["default", "hidden", "protected"]

def isVisibility (word : String) : Bool :=
  visibilities.contains word

def storageClasses : List String :=
  ["dllimport", "dllexport"]

def isStorageClass (word : String) : Bool :=
  storageClasses.contains word

-- Marks on functions whose address is not significant.
def addressMarks : List String :=
  ["unnamed_addr", "local_unnamed_addr"]

def isAddressMark (word : String) : Bool :=
  addressMarks.contains word

-- `cc` stands for the numbered conventions, which take one more token.
def callingConventions : List String :=
  ["ccc", "fastcc", "coldcc", "tailcc", "webkit_jscc", "anyregcc", "preserve_mostcc",
   "preserve_allcc", "preserve_nonecc", "cxx_fast_tlscc", "swiftcc", "swifttailcc",
   "cfguard_checkcc", "ghccc", "hhvmcc", "hhvm_ccc", "x86_stdcallcc", "x86_fastcallcc",
   "x86_thiscallcc", "x86_vectorcallcc", "x86_regcallcc", "x86_intrcc", "x86_64_sysvcc",
   "win64cc", "arm_apcscc", "arm_aapcscc", "arm_aapcs_vfpcc", "aarch64_vector_pcs",
   "aarch64_sve_vector_pcs", "msp430_intrcc", "avr_intrcc", "avr_signalcc", "ptx_kernel",
   "ptx_device", "spir_func", "spir_kernel", "intel_ocl_bicc", "amdgpu_kernel", "amdgpu_vs",
   "amdgpu_gs", "amdgpu_ps", "amdgpu_cs", "amdgpu_hs", "amdgpu_ls", "amdgpu_es", "cc"]

def isCallingConvention (word : String) : Bool :=
  callingConventions.contains word

-- Attributes of parameters and of results.
def parameterAttributes : List String :=
  ["zeroext", "signext", "noext", "inreg", "byval", "byref", "preallocated", "inalloca", "sret",
   "elementtype", "align", "noalias", "nocapture", "nofree", "nest", "returned", "nonnull",
   "dereferenceable", "dereferenceable_or_null", "swiftself", "swiftasync", "swifterror",
   "immarg", "noundef", "nofpclass", "alignstack", "allocalign", "allocptr", "readnone",
   "readonly", "writeonly", "writable", "dead_on_unwind", "range", "captures", "initializes"]

def isParameterAttribute (word : String) : Bool :=
  parameterAttributes.contains word

-- Attributes of functions that are plain keywords; attributes written as strings are not listed.
def functionAttributes : List String :=
  ["alignstack", "allocsize", "allockind", "alwaysinline", "builtin", "cold", "convergent",
   "disable_sanitizer_instrumentation", "fn_ret_thunk_extern", "hot", "inaccessiblememonly",
   "inaccessiblemem_or_argmemonly", "argmemonly", "inlinehint", "jumptable", "minsize",
   "mustprogress", "naked", "nobuiltin", "nocallback", "nocf_check", "noduplicate", "nofree",
   "noimplicitfloat", "noinline", "nomerge", "nonlazybind", "noprofile", "noredzone",
   "noreturn", "norecurse", "nosanitize_bounds", "nosanitize_coverage", "nosync", "nounwind",
   "null_pointer_is_valid", "optforfuzzing", "optnone", "optsize", "presplitcoroutine",
   "readnone", "readonly", "writeonly", "returns_twice", "safestack", "sanitize_address",
   "sanitize_hwaddress", "sanitize_memory", "sanitize_memtag", "sanitize_thread",
   "shadowcallstack", "skipprofile", "speculatable", "speculative_load_hardening", "ssp",
   "sspreq", "sspstrong", "strictfp", "uwtable", "vscale_range", "memory", "willreturn"]

def isFunctionAttribute (word : String) : Bool :=
  functionAttributes.contains word

def fastMathFlags : List String :=
  ["nnan", "ninf", "nsz", "arcp", "contract", "afn", "reassoc", "fast"]

def isFastMathFlag (word : String) : Bool :=
  fastMathFlags.contains word

def overflowFlags : List String :=
  ["nuw", "nsw", "exact", "disjoint", "nneg", "samesign"]

def isOverflowFlag (word : String) : Bool :=
  overflowFlags.contains word

def tailMarkers : List String :=
  ["tail", "musttail", "notail"]

def isTailMarker (word : String) : Bool :=
  tailMarkers.contains word

def atomicOrderings : List String :=
  ["unordered", "monotonic", "acquire", "release", "acq_rel", "seq_cst"]

def isAtomicOrdering (word : String) : Bool :=
  atomicOrderings.contains word

def integerPredicates : List String :=
  ["eq", "ne", "ugt", "uge", "ult", "ule", "sgt", "sge", "slt", "sle"]

def isIntegerPredicate (word : String) : Bool :=
  integerPredicates.contains word

def floatPredicates : List String :=
  ["false", "oeq", "ogt", "oge", "olt", "ole", "one", "ord", "ueq", "ugt", "uge", "ult", "ule",
   "une", "uno", "true"]

def isFloatPredicate (word : String) : Bool :=
  floatPredicates.contains word

def conversions : List String :=
  ["trunc", "zext", "sext", "fptrunc", "fpext", "fptoui", "fptosi", "uitofp", "sitofp",
   "ptrtoint", "inttoptr", "bitcast", "addrspacecast"]

def isConversion (word : String) : Bool :=
  conversions.contains word

def integerOperators : List String :=
  ["add", "sub", "mul", "udiv", "sdiv", "urem", "srem"]

def isIntegerOperator (word : String) : Bool :=
  integerOperators.contains word

def floatOperators : List String :=
  ["fadd", "fsub", "fmul", "fdiv", "frem"]

def isFloatOperator (word : String) : Bool :=
  floatOperators.contains word

def bitwiseOperators : List String :=
  ["shl", "lshr", "ashr", "and", "or", "xor"]

def isBitwiseOperator (word : String) : Bool :=
  bitwiseOperators.contains word

-- Operators other than casts and binary operators that may head a constant expression.
def constantOperators : List String :=
  ["getelementptr", "select", "icmp", "fcmp", "fneg", "extractelement", "insertelement",
   "shufflevector", "extractvalue", "insertvalue"]

-- Words that open a constant expression where a value is due.
def isConstantExpression (word : String) : Bool :=
  isConversion word || isIntegerOperator word || isFloatOperator word ||
    isBitwiseOperator word || constantOperators.contains word

def typeNames : List String :=
  ["void", "half", "bfloat", "float", "double", "fp128", "x86_fp80", "ppc_fp128", "x86_mmx",
   "x86_amx", "label", "metadata", "token", "ptr", "opaque", "target"]

-- `i` and at least one digit.
def isIntegerType (word : String) : Bool :=
  match word.toList with
  | 'i' :: d :: ds => (d :: ds).all Text.isAsciiDigit
  | _ => false

-- A percent sign and at least one character more.
def isLocalName (word : String) : Bool :=
  match word.toList with
  | '%' :: _ :: _ => true
  | _ => false

-- Words that can start a type.
def isTypeWord (word : String) : Bool :=
  isLocalName word || isIntegerType word || typeNames.contains word

-- A digit, possibly after a minus sign, opens a number.
def isNumber (word : String) : Bool :=
  match word.toList with
  | '-' :: c :: _ => Text.isAsciiDigit c
  | c :: _ => Text.isAsciiDigit c
  | [] => false

end TestFocus.Keyword
