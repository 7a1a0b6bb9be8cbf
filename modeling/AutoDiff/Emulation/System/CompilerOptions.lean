namespace AutoDiff.CompilerOptions

def words (lines : List String) : List String := lines.flatMap fun line => (line.toList.splitOn ' ').map String.ofList

/-- Options by themselves. -/
def plain : List String := words [
    "-C -CC -H -MD -MMD -P -ansi -p -pedantic -pedantic-errors -remap -trigraphs -v -w -pipe -s -t -X -Q -pg -pie",
    "-no-pie -static-pie -static-libgcc -static-libstdc++ -nostdlib -nostartfiles -nolibc -nodefaultlibs",
    "-save-temps -coverage -pthread -rdynamic -W -dA -dD -dI -dM -dN -dp -dU -shared-libgcc -time -fPIC -fPIE",
    "-nostdinc++ -pass-exit-codes -no-canonical-prefixes -save-temps=obj -save-temps=cwd -no-integrated-cpp",
    "-Ofast -Os -Og -Oz -O -static-libasan --all-warnings --ansi --comments --comments-in-macros --debug",
    "--extra-warnings --include-barrier --no-line-commands --no-warnings --optimize --pedantic --pedantic-errors",
    "--profile --trace-includes --trigraphs --verbose --write-dependencies --write-user-dependencies --coverage",
    "--shared --pipe --save-temps --pie --no-pie"]

/-- Options on what is kept for debuggers. -/
def debugging : List String := words [
    "-g -gas-loc-support -gas-locview-support -gbtf -gcoff -gcoff1 -gcoff2 -gcoff3 -gcolumn-info -gctf",
    "-gdescribe-dies -gdwarf -gdwarf32 -gdwarf64 -ggdb -ggnu-pubnames -ginline-points",
    "-ginternal-reset-location-views -gno-pubnames -gpubnames -grecord-gcc-switches -gsplit-dwarf -gstabs",
    "-gstabs+ -gstatement-frontiers -gstrict-dwarf -gtoggle -gvariable-location-views -gxcoff -gxcoff+ -gz -g0",
    "-g1 -g2 -g3 -ggdb0 -ggdb1 -ggdb2 -ggdb3 -gdwarf-2 -gdwarf-3 -gdwarf-4 -gdwarf-5 -gno-column-info",
    "-gno-split-dwarf -gno-strict-dwarf"]

/-- Features, after `-f` and after `-fno-`. -/
def features : List String := words [
    "PIC PIE aggressive-loop-optimizations align-functions align-jumps align-labels align-loops allocation-dce",
    "allow-parameterless-variadic-functions allow-store-data-races analyzer analyzer-call-summaries",
    "analyzer-feasibility analyzer-fine-grained analyzer-show-duplicate-count analyzer-state-merge",
    "analyzer-state-purge analyzer-suppress-followups analyzer-transitivity analyzer-undo-inlining",
    "analyzer-verbose-edges analyzer-verbose-state-changes argument-alias argument-noalias",
    "argument-noalias-anything argument-noalias-global asm associative-math asynchronous-unwind-tables",
    "auto-inc-dec bit-tests branch-count-reg branch-probabilities branch-target-load-optimize",
    "branch-target-load-optimize2 btr-bb-exclusive building-libgcc builtin caller-saves canon-prefix-map",
    "canonical-system-headers check-data-deps check-new check-pointer-bounds checking cilkplus code-hoisting",
    "combine-stack-adjustments common compare-debug compare-elim cond-mismatch conserve-stack cprop-registers",
    "crossjumping cse-follow-jumps cse-skip-blocks cx-fortran-rules cx-limited-range data-sections dbg-cnt-list",
    "dce debug-cpp debug-types-section defer-pop delayed-branch delete-dead-exceptions delete-null-pointer-checks",
    "devirtualize devirtualize-at-ltrans devirtualize-speculatively diagnostics-color diagnostics-generate-patch",
    "diagnostics-parseable-fixits diagnostics-show-caret diagnostics-show-cwe diagnostics-show-labels",
    "diagnostics-show-line-numbers diagnostics-show-option diagnostics-show-path-depths diagnostics-show-rules",
    "directives-only dollars-in-identifiers dse dwarf2-cfi-asm early-inlining eliminate-dwarf2-dups",
    "eliminate-unused-debug-symbols eliminate-unused-debug-types emit-class-debug-always",
    "emit-struct-debug-baseonly emit-struct-debug-reduced exceptions expensive-optimizations extended-identifiers",
    "fast-math fat-lto-objects finite-loops finite-math-only float-store fold-simple-inlines force-addr",
    "forward-propagate fp-int-builtin-inexact freestanding function-cse function-sections gcse gcse-after-reload",
    "gcse-las gcse-lm gcse-sm gimple gnu-tm gnu-unique gnu89-inline graphite graphite-identity",
    "guess-branch-probability handle-exceptions harden-compares harden-conditional-branches hoist-adjacent-loads",
    "hosted ident if-conversion if-conversion2 indirect-inlining inhibit-size-directive inline inline-atomics",
    "inline-functions inline-functions-called-once inline-small-functions instrument-functions",
    "instrument-functions-once ipa-bit-cp ipa-cp ipa-cp-alignment ipa-cp-clone ipa-icf ipa-icf-functions",
    "ipa-icf-variables ipa-matrix-reorg ipa-modref ipa-profile ipa-pta ipa-pure-const ipa-ra ipa-reference",
    "ipa-reference-addressable ipa-sra ipa-stack-alignment ipa-strict-aliasing ipa-struct-reorg ipa-vrp",
    "ira-hoist-pressure ira-loop-pressure ira-share-save-slots ira-share-spill-slots",
    "isolate-erroneous-paths-attribute isolate-erroneous-paths-dereference ivopts jump-tables keep-gc-roots-live",
    "keep-inline-functions keep-static-consts keep-static-functions large-source-files lax-vector-conversions",
    "lifetime-dse limit-function-alignment live-range-shrinkage loop-block loop-flatten loop-interchange",
    "loop-nest-optimize loop-optimize loop-parallelize-all loop-strip-mine loop-unroll-and-jam lra-remat lto",
    "lto-odr-type-merging lto-report lto-report-wpa math-errno mem-report mem-report-wpa merge-all-constants",
    "merge-constants merge-debug-strings modulo-sched modulo-sched-allow-regmoves move-loop-invariants",
    "move-loop-stores ms-extensions mudflap mudflapir mudflapth non-call-exceptions nothrow-opt",
    "omit-frame-pointer openacc openmp openmp-simd openmp-target-simd-clone opt-info optimize-register-move",
    "optimize-sibling-calls optimize-strlen pack-struct partial-inlining pcc-struct-return pch-deps",
    "pch-preprocess peel-loops peephole peephole2 pic pie plan9-extensions plt post-ipa-mem-report",
    "pre-ipa-mem-report predictive-commoning prefetch-loop-arrays printf-return-value profile profile-abs-path",
    "profile-arcs profile-correction profile-generate profile-partial-training profile-reorder-functions",
    "profile-report profile-use profile-values reciprocal-math record-gcc-switches ree reg-struct-return regmove",
    "rename-registers reorder-blocks reorder-blocks-and-partition reorder-functions report-bug",
    "require-return-statement rerun-cse-after-loop rerun-loop-opt reschedule-modulo-scheduled-loops rounding-math",
    "rtti sanitize-address-use-after-scope sanitize-recover sanitize-trap sanitize-undefined-trap-on-error",
    "save-optimization-record sched-critical-path-heuristic sched-dep-count-heuristic sched-group-heuristic",
    "sched-interblock sched-last-insn-heuristic sched-pressure sched-rank-heuristic sched-spec",
    "sched-spec-insn-heuristic sched-spec-load sched-spec-load-dangerous sched-stalled-insns",
    "sched-stalled-insns-dep sched2-use-superblocks sched2-use-traces schedule-fusion schedule-insns",
    "schedule-insns2 section-anchors see sel-sched-pipelining sel-sched-pipelining-outer-loops",
    "sel-sched-reschedule-pipelined selective-scheduling selective-scheduling2 semantic-interposition short-enums",
    "short-wchar show-column shrink-wrap shrink-wrap-separate signaling-nans signed-bitfields signed-char",
    "signed-zeros single-precision-constant split-ivs-in-unroller split-loops split-paths split-stack",
    "split-wide-types split-wide-types-early ssa-backprop ssa-phiopt stack-check stack-clash-protection",
    "stack-protector stdarg-opt store-merging strength-reduce strict-aliasing strict-enums strict-flex-arrays",
    "strict-overflow strict-volatile-bitfields sync-libcalls test-coverage thread-jumps threadsafe-statics",
    "time-report time-report-details toplevel-reorder tracer trampolines trapping-math trapv tree-bit-ccp",
    "tree-builtin-call-dce tree-ccp tree-ch tree-coalesce-vars tree-copy-prop tree-copyrename tree-cselim",
    "tree-dce tree-dominator-opts tree-dse tree-forwprop tree-fre tree-loop-distribute-patterns",
    "tree-loop-distribution tree-loop-if-convert tree-loop-if-convert-stores tree-loop-im tree-loop-ivcanon",
    "tree-loop-linear tree-loop-optimize tree-loop-vectorize tree-lrs tree-partial-pre tree-phiprop tree-pre",
    "tree-pta tree-reassoc tree-salias tree-scev-cprop tree-sink tree-slp-vectorize tree-slsr tree-sra",
    "tree-store-ccp tree-store-copy-prop tree-switch-conversion tree-tail-merge tree-ter tree-vect-loop-version",
    "tree-vectorize tree-vrp unconstrained-commons unit-at-a-time unreachable-traps unroll-all-loops",
    "unroll-completely-grow-size unroll-loops unsafe-loop-optimizations unsafe-math-optimizations",
    "unsigned-bitfields unsigned-char unswitch-loops unwind-tables use-linker-plugin var-tracking",
    "var-tracking-assignments var-tracking-assignments-toggle var-tracking-uninit variable-expansion-in-unroller",
    "vect-cost-model verbose-asm version-loops-for-strides vpt vtv-counts vtv-debug web working-directory wrapv",
    "wrapv-pointer zee zero-initialized-in-bss"]

/-- Features that can only be asked for. -/
def featuresOn : List String := words [
    "callgraph-info cf-protection compare-debug-second diagnostics-plain-output live-patching",
    "profile-info-section stack-protector-all stack-protector-explicit stack-protector-strong stack-usage",
    "track-macro-expansion tree-coalesce-inlined-vars"]

/-- Features that can only be refused. -/
def featuresOff : List String := words [
    "auto-profile preprocessed random-seed stack-limit"]

/-- Properties of the machine, after `-m` and after `-mno-`. -/
def machine : List String := words [
    "3dnow 3dnowa 80387 8bit-idiv abm accumulate-outgoing-args adx aes align-double align-stringops amx-bf16",
    "amx-complex amx-fp16 amx-int8 amx-tile avx avx2 avx256-split-unaligned-load avx256-split-unaligned-store",
    "avx5124fmaps avx5124vnniw avx512bf16 avx512bitalg avx512bw avx512cd avx512dq avx512er avx512f avx512fp16",
    "avx512ifma avx512pf avx512vbmi avx512vbmi2 avx512vl avx512vnni avx512vp2intersect avx512vpopcntdq avxifma",
    "avxneconvert avxvnni avxvnniint8 bmi bmi2 call-ms2sysv-xlogues cet-switch cld cldemote clflushopt clwb",
    "clzero cmpccxadd crc32 cx16 daz-ftz direct-extern-access enqcmd f16c fancy-math-387 fentry fma fma4",
    "force-drap force-indirect-call fp-ret-in-387 fsgsbase fused-madd fxsr gather gfni hle hreset ieee-fp",
    "indirect-branch-cs-prefix indirect-branch-register inline-all-stringops inline-stringops-dynamically",
    "intel-syntax kl lwp lzcnt manual-endbr mitigate-rop mmx movbe movdir64b movdiri mpx ms-bitfields mwait",
    "mwaitx needed omit-leaf-frame-pointer pclmul pcommit pconfig pku popcnt prefer-avx128 prefetchi prefetchwt1",
    "prfchw ptwrite push-args raoint rdpid rdrnd rdseed recip record-mcount record-return red-zone",
    "relax-cmpxchg-loop rtd rtm sahf scatter serialize sgx sha shstk skip-rax-setup soft-float sse2 sse2avx sse3",
    "sse4 sse4.1 sse4.2 sse4a sse5 ssse3 stackrealign stv tbm tls-direct-seg-refs tsxldtrk uintr",
    "unroll-only-small-loops vaes vect8-ret-in-mem vpclmulqdq vzeroupper waitpkg wbnoinvd widekl xop xsave xsavec",
    "xsaveopt xsaves"]

/-- Properties that can only be asked for. -/
def machineOn : List String := words [
    "128bit-long-double 64 bionic dispatch-scheduler dump-tune-features glibc hard-float long-double-128",
    "long-double-64 long-double-80 musl pc32 pc64 pc80 sse sseregparm uclibc"]

/-- Properties that can only be refused. -/
def machineOff : List String := words [
    "android default iamcu nop-mcount"]

/-- Warnings, after `-W`. -/
def warnings : List String := words [
    "NSObject-attribute abi-tag absolute-value address address-of-packed-member aggregate-return",
    "aggressive-loop-optimizations aliasing align-commons aligned-new all alloc-zero alloca ampersand",
    "analyzer-allocation-size analyzer-deref-before-check analyzer-double-fclose analyzer-double-free",
    "analyzer-exposure-through-output-file analyzer-exposure-through-uninit-copy analyzer-fd-access-mode-mismatch",
    "analyzer-fd-double-close analyzer-fd-leak analyzer-fd-phase-mismatch analyzer-fd-type-mismatch",
    "analyzer-fd-use-after-close analyzer-fd-use-without-check analyzer-file-leak analyzer-free-of-non-heap",
    "analyzer-imprecise-fp-arithmetic analyzer-infinite-recursion analyzer-jump-through-null analyzer-malloc-leak",
    "analyzer-mismatching-deallocation analyzer-null-argument analyzer-null-dereference analyzer-out-of-bounds",
    "analyzer-possible-null-argument analyzer-possible-null-dereference analyzer-putenv-of-auto-var",
    "analyzer-shift-count-negative analyzer-shift-count-overflow analyzer-stale-setjmp-buffer",
    "analyzer-tainted-allocation-size analyzer-tainted-array-index analyzer-tainted-assertion",
    "analyzer-tainted-divisor analyzer-tainted-offset analyzer-tainted-size analyzer-too-complex",
    "analyzer-unsafe-call-within-signal-handler analyzer-use-after-free",
    "analyzer-use-of-pointer-in-stale-stack-frame analyzer-use-of-uninitialized-value",
    "analyzer-va-arg-type-mismatch analyzer-va-list-exhausted analyzer-va-list-leak",
    "analyzer-va-list-use-after-va-end analyzer-write-to-const analyzer-write-to-string-literal arith-conversion",
    "array-bounds array-compare array-parameter array-temporaries assign-intercept attribute-alias",
    "attribute-warning attributes bad-function-cast bidi-chars bool-compare bool-operation",
    "builtin-declaration-mismatch builtin-macro-redefined c++-compat c++0x-compat c++11-compat c++11-extensions",
    "c++14-compat c++14-extensions c++17-compat c++17-extensions c++1z-compat c++20-compat c++20-extensions",
    "c++23-extensions c++2a-compat c-binding-type c11-c2x-compat c90-c99-compat c99-c11-compat cannot-profile",
    "cast-align cast-function-type cast-qual cast-result catch-value changes-meaning char-subscripts",
    "character-truncation chkp class-conversion class-memaccess clobbered comma-subscript comment comments",
    "compare-reals complain-wrong-lang conditionally-supported conversion conversion-extra conversion-null",
    "coverage-invalid-line-number coverage-mismatch cpp ctad-maybe-unsupported ctor-dtor-privacy dangling-else",
    "dangling-pointer dangling-reference date-time declaration-after-statement delete-incomplete",
    "delete-non-virtual-dtor deprecated deprecated-copy deprecated-copy-dtor deprecated-declarations",
    "deprecated-enum-enum-conversion deprecated-enum-float-conversion designated-init disabled-optimization",
    "discarded-array-qualifiers discarded-qualifiers div-by-zero do-subscript double-promotion",
    "duplicate-decl-specifier duplicated-branches duplicated-cond effc++ empty-body endif-labels enum-compare",
    "enum-conversion enum-int-mismatch error-implicit-function-declaration exceptions expansion-to-defined extra",
    "extra-semi fatal-errors float-conversion float-equal format format-contains-nul format-diag",
    "format-extra-args format-nonliteral format-overflow format-security format-signedness format-truncation",
    "format-y2k format-zero-length frame-address free-nonheap-object function-elimination hsa if-not-aligned",
    "ignored-attributes ignored-qualifiers implicit implicit-fallthrough implicit-function-declaration",
    "implicit-int implicit-interface implicit-procedure import inaccessible-base incompatible-pointer-types",
    "infinite-recursion inherited-variadic-ctor init-list-lifetime init-self inline int-conversion",
    "int-in-bool-context int-to-pointer-cast integer-division interference-size intrinsic-shadow intrinsics-std",
    "invalid-constexpr invalid-imported-macros invalid-memory-model invalid-offsetof invalid-pch invalid-utf8",
    "jump-misses-init line-truncation literal-suffix logical-not-parentheses logical-op long-long",
    "lto-type-mismatch main maybe-uninitialized memset-elt-size memset-transposed-args misleading-indentation",
    "mismatched-dealloc mismatched-new-delete mismatched-special-enum mismatched-tags missing-attributes",
    "missing-braces missing-declarations missing-field-initializers missing-format-attribute missing-include-dirs",
    "missing-noreturn missing-parameter-type missing-profile missing-prototypes missing-requires",
    "missing-template-keyword mudflap multichar multiple-inheritance multistatement-macros namespaces narrowing",
    "nested-externs noexcept noexcept-type non-template-friend non-virtual-dtor nonnull nonnull-compare",
    "normalized null-dereference objc-root-class odr old-style-cast old-style-declaration old-style-definition",
    "openacc-parallelism openmp-simd overflow overlength-strings overloaded-virtual override-init",
    "override-init-side-effects overwrite-recursive packed packed-bitfield-compat packed-not-aligned padded",
    "parentheses pedantic pessimizing-move placement-new pmf-conversions pointer-arith pointer-compare",
    "pointer-sign pointer-to-int-cast pragmas prio-ctor-dtor property-assign-default protocol psabi",
    "range-loop-construct real-q-constant realloc-lhs realloc-lhs-all redundant-decls redundant-move",
    "redundant-tags register reorder restrict return-local-addr return-type scalar-storage-order selector",
    "self-move sequence-point shadow shadow-compatible-local shadow-ivar shadow-local shift-count-negative",
    "shift-count-overflow shift-negative-value shift-overflow sign-compare sign-conversion sign-promo",
    "sized-deallocation sizeof-array-argument sizeof-array-div sizeof-pointer-div sizeof-pointer-memaccess",
    "stack-protector strict-aliasing strict-flex-arrays strict-null-sentinel strict-overflow strict-prototypes",
    "strict-selector-match string-compare stringop-overflow stringop-overread stringop-truncation",
    "subobject-linkage suggest-final-methods suggest-final-types suggest-override surprising switch switch-bool",
    "switch-default switch-enum switch-outside-range switch-unreachable sync-nand synth system-headers tabs",
    "target-lifetime tautological-compare templates terminate traditional traditional-conversion trampolines",
    "trigraphs trivial-auto-var-init tsan type-limits undeclared-selector undef undefined-do-loop underflow",
    "unicode uninitialized unknown-pragmas unreachable-code unsafe-loop-optimizations unsuffixed-float-constants",
    "unused unused-but-set-parameter unused-but-set-variable unused-const-variable unused-dummy-argument",
    "unused-function unused-label unused-local-typedefs unused-macros unused-parameter unused-result unused-value",
    "unused-variable use-after-free use-without-only useless-cast varargs variadic-macros",
    "vector-operation-performance vexing-parse virtual-inheritance virtual-move-assign vla vla-parameter volatile",
    "volatile-register-var write-strings xor-used-as-pow zero-as-null-pointer-constant zero-length-bounds",
    "zerotrip"]

/-- Warnings that every source of a library gets. -/
def warned : List String := words [
    "abi c90-c99-compat declaration-after-statement missing-declarations missing-prototypes traditional"]

/-- Options with a value after an equals sign: one of some words, a number (`#`, with its limit if it has one)
or anything (`*`). -/
def valued : List (String × String) := [
    ("-Wabi", "#"), ("-Waligned-new", "all global none"), ("-Walloc-size-larger-than", "#"),
    ("-Walloca-larger-than", "#"), ("-Warray-bounds", "#2"), ("-Warray-parameter", "#2"),
    ("-Wattribute-alias", "#2"), ("-Wbidi-chars", "any none ucn unpaired"), ("-Wcast-align", "strict"),
    ("-Wcatch-value", "#3"), ("-Wdangling-pointer", "#2"), ("-Wformat", "#2"), ("-Wformat-overflow", "#2"),
    ("-Wformat-truncation", "#2"), ("-Wframe-larger-than", "#"), ("-Wimplicit-fallthrough", "#5"),
    ("-Wlarger-than", "#"), ("-Wnormalized", "id nfc nfkc none"), ("-Woverloaded-virtual", "#2"),
    ("-Wplacement-new", "#2"), ("-Wshadow", "global local compatible-local"), ("-Wshift-overflow", "#2"),
    ("-Wstack-usage", "#"), ("-Wstrict-aliasing", "#3"), ("-Wstrict-overflow", "#5"), ("-Wstringop-overflow", "#4"),
    ("-Wsuggest-attribute", "cold const format malloc noreturn pure"), ("-Wunused-const-variable", "#2"),
    ("-Wuse-after-free", "#3"), ("-Wvla-larger-than", "#"), ("-fada-spec-parent", "*"), ("-falign-functions", "#"),
    ("-falign-jumps", "#"), ("-falign-labels", "#"), ("-falign-loops", "#"), ("-fanalyzer-checker", "*"),
    ("-fanalyzer-verbosity", "#"), ("-fcf-protection", "branch check full none return"), ("-fchecking", "#"),
    ("-fdbg-cnt", "*"), ("-fdebug-prefix-map", "*"), ("-fdiagnostics-color", "always auto never"),
    ("-fdiagnostics-column-origin", "#"), ("-fdiagnostics-column-unit", "byte display"),
    ("-fdiagnostics-escape-format", "bytes unicode"),
    ("-fdiagnostics-format", "json json-file json-stderr sarif-file sarif-stderr text"),
    ("-fdiagnostics-minimum-margin-width", "#"),
    ("-fdiagnostics-path-format", "inline-events none separate-events"),
    ("-fdiagnostics-show-location", "every-line once"), ("-fdiagnostics-urls", "always auto never"),
    ("-fdump-final-insns", "*"), ("-fdump-go-spec", "*"), ("-fexcess-precision", "16 fast standard"),
    ("-ffile-prefix-map", "*"), ("-ffp-contract", "fast off on"), ("-fgnat-encodings", "all gdb minimal"),
    ("-finline-limit", "#"), ("-finstrument-functions-exclude-file-list", "*"),
    ("-finstrument-functions-exclude-function-list", "*"), ("-fira-algorithm", "CB priority"),
    ("-fira-region", "all mixed one"), ("-fira-verbose", "#"), ("-flifetime-dse", "#2"),
    ("-flive-patching", "inline-clone inline-only-static"), ("-flto", "#"), ("-flto-compression-level", "#19"),
    ("-flto-partition", "1to1 balanced max none one"), ("-fmacro-prefix-map", "*"), ("-fmax-errors", "#"),
    ("-fmessage-length", "#"), ("-foffload-abi", ""), ("-fopenacc-dim", "*"),
    ("-fopenmp-target-simd-clone", "any host nohost none"), ("-fpack-struct", "#16"),
    ("-fpatchable-function-entry", "#"), ("-fpermitted-flt-eval-methods", "c11 ts-18661-3"), ("-fprofile-dir", "*"),
    ("-fprofile-exclude-files", "*"), ("-fprofile-filter-files", "*"), ("-fprofile-generate", "*"),
    ("-fprofile-info-section", "*"), ("-fprofile-note", "*"), ("-fprofile-prefix-map", "*"),
    ("-fprofile-prefix-path", "*"), ("-fprofile-reproducible", "multithreaded parallel-runs serial"),
    ("-fprofile-update", "atomic prefer-atomic single"), ("-fprofile-use", "*"), ("-frandom-seed", "*"),
    ("-freorder-blocks-algorithm", "simple stc"),
    ("-fsanitize", "undefined bounds null alignment float-divide-by-zero float-cast-overflow "
      ++ "signed-integer-overflow integer-divide-by-zero shift return vla-bound unreachable "
      ++ "object-size builtin pointer-overflow enum bool"),
    ("-fsanitize-coverage", "trace-cmp trace-pc"), ("-fsanitize-sections", "*"), ("-fsched-stalled-insns", "#"),
    ("-fsched-stalled-insns-dep", "#"), ("-fsched-verbose", "#"),
    ("-fsimd-cost-model", "cheap dynamic unlimited very-cheap"),
    ("-fsso-struct", "big-endian little-endian native"), ("-fstack-check", "*"), ("-fstack-limit-register", "#69"),
    ("-fstack-limit-symbol", "*"), ("-fstack-reuse", "all named_vars none"), ("-fstrict-flex-arrays", "#3"),
    ("-ftabstop", "#"), ("-ftls-model", "global-dynamic initial-exec local-dynamic local-exec"),
    ("-ftrack-macro-expansion", "#"), ("-ftree-parallelize-loops", "#"), ("-ftree-vectorizer-verbose", "*"),
    ("-ftrivial-auto-var-init", "pattern uninitialized zero"), ("-fuse-ld", "bfd gold"),
    ("-fvect-cost-model", "cheap dynamic unlimited very-cheap"),
    ("-fvisibility", "default hidden internal protected"), ("-fvtable-verify", "none"),
    ("-fzero-call-used-regs", "skip used used-gpr used-arg used-gpr-arg all all-gpr all-arg all-gpr-arg"),
    ("-gz", "none zlib zlib-gnu zstd"), ("-mabi", "ms sysv"), ("-maddress-mode", "long"),
    ("-malign-data", "abi cacheline compat"), ("-malign-functions", "#16"), ("-malign-jumps", "#16"),
    ("-malign-loops", "#16"),
    ("-march", "nocona core2 nehalem corei7 westmere sandybridge corei7-avx ivybridge core-avx-i haswell "
      ++ "core-avx2 broadwell skylake skylake-avx512 cannonlake icelake-client rocketlake "
      ++ "icelake-server cascadelake tigerlake cooperlake sapphirerapids emeraldrapids alderlake "
      ++ "raptorlake meteorlake graniterapids graniterapids-d bonnell atom silvermont slm goldmont "
      ++ "goldmont-plus tremont gracemont sierraforest grandridge knl knm x86-64 x86-64-v2 x86-64-v3 "
      ++ "x86-64-v4 eden-x2 nano nano-1000 nano-2000 nano-3000 nano-x2 eden-x4 nano-x4 lujiazui k8 "
      ++ "k8-sse3 opteron opteron-sse3 athlon64 athlon64-sse3 athlon-fx amdfam10 barcelona bdver1 "
      ++ "bdver2 bdver3 bdver4 znver1 znver2 znver3 znver4 btver1 btver2 native"),
    ("-masm", "att intel"), ("-mbranch-cost", "#5"), ("-mcmodel", "large medium small"),
    ("-mcpu", "nocona core2 nehalem corei7 westmere sandybridge corei7-avx ivybridge core-avx-i haswell "
      ++ "core-avx2 broadwell skylake skylake-avx512 cannonlake icelake-client rocketlake "
      ++ "icelake-server cascadelake tigerlake cooperlake sapphirerapids emeraldrapids alderlake "
      ++ "raptorlake meteorlake graniterapids graniterapids-d bonnell atom silvermont slm goldmont "
      ++ "goldmont-plus tremont gracemont sierraforest grandridge knl knm intel x86-64 eden-x2 nano "
      ++ "nano-1000 nano-2000 nano-3000 nano-x2 eden-x4 nano-x4 lujiazui k8 k8-sse3 opteron "
      ++ "opteron-sse3 athlon64 athlon64-sse3 athlon-fx amdfam10 barcelona bdver1 bdver2 bdver3 bdver4 "
      ++ "znver1 znver2 znver3 znver4 btver1 btver2 generic native"),
    ("-mfentry-name", "*"), ("-mfentry-section", "*"), ("-mfpmath", "387 387+sse 387,sse both sse sse+387 sse,387"),
    ("-mfunction-return", "keep thunk-extern"), ("-mharden-sls", "all indirect-jmp none return"),
    ("-mindirect-branch", "keep thunk-extern"), ("-minstrument-return", "call none nop5"),
    ("-mlam", "none u48 u57"), ("-mlarge-data-threshold", "#"), ("-mmove-max", "128 256 512 none"),
    ("-mprefer-vector-width", "128 256 512 none"), ("-mrecip", "all none default div vec-div sqrt vec-sqrt"),
    ("-mregparm", "#6"), ("-mstack-protector-guard", "global tls"), ("-mstack-protector-guard-offset", "#"),
    ("-mstack-protector-guard-symbol", "*"), ("-mstore-max", "128 256 512 none"),
    ("-mstringop-strategy", "byte_loop libcall loop rep_4byte rep_8byte rep_byte unrolled_loop vector_loop"),
    ("-mtls-dialect", "gnu gnu2"),
    ("-mtune", "nocona core2 nehalem corei7 westmere sandybridge corei7-avx ivybridge core-avx-i haswell "
      ++ "core-avx2 broadwell skylake skylake-avx512 cannonlake icelake-client rocketlake "
      ++ "icelake-server cascadelake tigerlake cooperlake sapphirerapids emeraldrapids alderlake "
      ++ "raptorlake meteorlake graniterapids graniterapids-d bonnell atom silvermont slm goldmont "
      ++ "goldmont-plus tremont gracemont sierraforest grandridge knl knm intel x86-64 eden-x2 nano "
      ++ "nano-1000 nano-2000 nano-3000 nano-x2 eden-x4 nano-x4 lujiazui k8 k8-sse3 opteron "
      ++ "opteron-sse3 athlon64 athlon64-sse3 athlon-fx amdfam10 barcelona bdver1 bdver2 bdver3 bdver4 "
      ++ "znver1 znver2 znver3 znver4 btver1 btver2 generic native"),
    ("-mveclibabi", "acml svml"),
    ("-std", "c11 c17 c18 c1x c2x c89 c90 c99 c9x gnu11 gnu17 gnu18 gnu1x gnu2x gnu89 gnu90 gnu99 gnu9x "
      ++ "iso9899:1990 iso9899:199409 iso9899:1999 iso9899:199x iso9899:2011 iso9899:2017 iso9899:2018 "
      ++ "c++98 c++03 c++0x c++11 c++1y c++14 c++1z c++17 c++2a c++20 c++2b c++23 gnu++98 gnu++11 "
      ++ "gnu++14 gnu++17 gnu++20 gnu++23 f95 f2003 f2008 f2018")]

end AutoDiff.CompilerOptions
