/-
This file lists the words that a formula may use.  Every word stands behind a
backslash.
-/

namespace HorizonPlanner.Plot

/-! ### Words -/

/-- The words of a text, which single blanks set apart. -/
def blankedWords (text : String) : List String := text.splitToList (· == ' ')

/-- The words that stand for one symbol. -/
def symbolWords : List String :=
  blankedWords <|
    "AA aa ac acute acwopencirclearrow adots AE ae aleph alpha amalg angle approx approxeq"
    ++ " approxident arceq ast asterisk asymp backcong backepsilon backprime backsim backsimeq"
    ++ " backslash bagmember bar barleftarrow barvee barwedge BbbC BbbN BbbP BbbQ BbbR BbbZ"
    ++ " because beta beth between bigcap bigcirc bigcup bigodot bigoplus bigotimes bigsqcup"
    ++ " bigstar bigtriangledown bigtriangleup biguplus bigvee bigwedge blacklozenge blacksquare"
    ++ " blacktriangle blacktriangledown blacktriangleleft blacktriangleright bot bowtie boxbar"
    ++ " boxdot boxminus boxplus boxtimes breve bullet Bumpeq bumpeq c candra Cap cap"
    ++ " carriagereturn cdot cdotp cdots cent check checkmark chi circ circeq circlearrowleft"
    ++ " circlearrowright circledast circledcirc circleddash circledR circledS circumflexaccent"
    ++ " clubsuit clubsuitopen Colon colon coloneq combiningacuteaccent combiningbreve"
    ++ " combiningdiaeresis combiningdotabove combiningfourdotsabove combininggraveaccent"
    ++ " combiningoverline combiningrightarrowabove combiningthreedotsabove combiningtilde"
    ++ " complement cong coprod copyright Cup cup cupdot cupleftarrow curlyeqprec curlyeqsucc"
    ++ " curlyvee curlywedge curvearrowleft curvearrowright cwopencirclearrow d dag dagger daleth"
    ++ " danger dashleftarrow dashrightarrow dashv ddag ddagger ddddot dddot ddot ddots degree"
    ++ " Delta delta DH dh diamond diamondsuit digamma disin div divideontimes dot Doteq doteq"
    ++ " doteqdot dotminus dotplus dots dotsminusdots doublebarwedge Downarrow downarrow"
    ++ " downdownarrows downharpoonleft downharpoonright downzigzagarrow ell emdash emptyset"
    ++ " endash epsilon eqcirc eqcolon eqdef eqgtr eqless eqsim eqslantgtr eqslantless equal"
    ++ " equalparallel Equiv equiv eta eth exists fallingdotseq Finv flat forall frakC frakZ"
    ++ " frown Game Gamma gamma geq geqq geqslant gg ggg gimel gnapprox gneqq gnsim grave greater"
    ++ " gtrapprox gtrdot gtreqless gtreqqless gtrless gtrsim guillemotleft guillemotright"
    ++ " guilsinglleft guilsinglright H hat hbar heartsuit hermitmatrix hookleftarrow"
    ++ " hookrightarrow hslash i iiiint iiint iint Im imageof imath in increment infty int"
    ++ " intercal invnot iota isindot isinE isinobar isins isinvb jmath Join k kappa"
    ++ " kernelcontraction L l Lambda lambda lambdabar langle lasp lbrace lbrack lceil ldots Ldsh"
    ++ " leadsto Leftarrow leftarrow leftarrowtail leftbrace leftharpoonaccent leftharpoondown"
    ++ " leftharpoonup leftleftarrows leftparen Leftrightarrow leftrightarrow leftrightarrows"
    ++ " leftrightharpoons leftrightsquigarrow leftsquigarrow leftthreetimes leq leqq leqslant"
    ++ " less lessapprox lessdot lesseqgtr lesseqqgtr lessgtr lesssim lfloor lgroup lhd ll"
    ++ " llcorner Lleftarrow lll lnapprox lneqq lnsim Longleftarrow longleftarrow"
    ++ " Longleftrightarrow longleftrightarrow longmapsto Longrightarrow longrightarrow"
    ++ " looparrowleft looparrowright lq lrcorner Lsh ltimes macron maltese mapsdown mapsfrom"
    ++ " mapsto mapsup measeq measuredangle measuredrightangle merge mho mid minus minuscolon"
    ++ " models mp mu multimap nabla napprox natural ncong ne Nearrow nearrow neg neq nequiv"
    ++ " nexists ngeq ngtr ngtrless ngtrsim ni niobar nis nisd nLeftarrow nleftarrow"
    ++ " nLeftrightarrow nleftrightarrow nleq nless nlessgtr nlesssim nmid not notin notsmallowns"
    ++ " nparallel nprec npreccurlyeq nRightarrow nrightarrow nsim nsimeq nsqsubseteq nsqsupseteq"
    ++ " nsubset nsubseteq nsucc nsucccurlyeq nsupset nsupseteq ntriangleleft ntrianglelefteq"
    ++ " ntriangleright ntrianglerighteq nu nVDash nVdash nvDash nvdash Nwarrow nwarrow O o obar"
    ++ " ocirc odot OE oe oequal oiiint oiint oint Omega omega ominus oplus origof oslash otimes"
    ++ " overarc overleftarrow overleftrightarrow P parallel partial perp perthousand Phi phi Pi"
    ++ " pi pitchfork plus pm prec precapprox preccurlyeq preceq precnapprox precnsim precsim"
    ++ " prime prod propto prurel Psi psi QED quad questeq rangle rasp ratio rbrace rbrack rceil"
    ++ " Re rfloor rgroup rhd rho rightangle Rightarrow rightarrow rightarrowbar rightarrowtail"
    ++ " rightassert rightbrace rightharpoonaccent rightharpoondown rightharpoonup"
    ++ " rightleftarrows rightleftharpoons rightModels rightparen rightrightarrows"
    ++ " rightsquigarrow rightthreetimes rightzigzagarrow ring risingdotseq rq Rrightarrow Rsh"
    ++ " rtimes S scrB scrE scre scrF scrg scrH scrI scrL scrM scro scrR scurel Searrow searrow"
    ++ " setminus sharp Sigma sigma sim simeq simneqq sinewave slash smallin smallintclockwise"
    ++ " smallointctrcclockwise smallowns smallsetminus smallvarointclockwise smile solbar"
    ++ " spadesuit spadesuitopen sphericalangle sqcap sqcup sqsubset sqsubseteq sqsubsetneq"
    ++ " sqsupset sqsupseteq sqsupsetneq ss star stareq sterling Subset subset subseteq subseteqq"
    ++ " subsetneq subsetneqq succ succapprox succcurlyeq succeq succnapprox succnsim succsim sum"
    ++ " Supset supset supseteq supseteqq supsetneq supsetneqq Swarrow swarrow t tau"
    ++ " textasciiacute textasciicircum textasciigrave textasciitilde textexclamdown"
    ++ " textquestiondown textquotedblleft textquotedblright therefore Theta theta thickspace"
    ++ " Thorn thorn tilde times to top triangle triangledown triangleeq triangleleft"
    ++ " trianglelefteq triangleq triangleright trianglerighteq turnednot twoheaddownarrow"
    ++ " twoheadleftarrow twoheadrightarrow twoheaduparrow ulcorner underbar unlhd unrhd Uparrow"
    ++ " uparrow Updownarrow updownarrow updownarrowbar updownarrows upharpoonleft upharpoonright"
    ++ " uplus Upsilon upsilon upuparrows urcorner varepsilon varisinobar varisins varkappa"
    ++ " varlrtriangle varniobar varnis varnothing varphi varpi varpropto varrho varsigma"
    ++ " vartheta vartriangle vartriangleleft vartriangleright Vdash vDash vdash vdots vec vee"
    ++ " veebar veeeq Vert vert Vvdash wedge wedgeq wideangledown wideangleup widebar widehat"
    ++ " widetilde wp wr Xi xi yen zeta"

/-- The words that stand for a function. -/
def functionWords : List String :=
  blankedWords <|
    "arccos csc ker min arcsin deg lg Pr arctan det lim sec arg dim liminf sin cos exp"
    ++ " limsup sinh cosh gcd ln sup cot hom log tan coth inf max tanh"

/-- The words that put an accent on what follows. -/
def accentWords : List String :=
  blankedWords <|
    "hat breve bar grave acute tilde dot ddot dddot ddddot vec overrightarrow overleftarrow"
    ++ " mathring widehat widetilde widebar"

/-- The characters that put an accent on what follows when they stand behind a backslash. -/
def accentMarks : List Char := ['"', '`', '\'', '~', '.', '^']

/-- The words that change the font.  None comes before one that it is the front of. -/
def fontWords : List String :=
  blankedWords "rm cal it tt sf bfit bf default bb frak scr regular"

/-- The spellings of a space. -/
def spaces : List String :=
  ["\\,", "\\thinspace", "\\/", "\\>", "\\:", "\\;", "\\ ", "~", "\\enspace", "\\quad",
    "\\qquad", "\\!"]

/-- The spellings of a delimiter. -/
def delimiters : List String :=
  ["|", "\\|", "/", "\\backslash", "\\uparrow", "\\downarrow", "\\updownarrow", "\\Uparrow",
    "\\Downarrow", "\\Updownarrow", ".", "\\vert", "\\Vert", "(", "[", "\\\x7b", "<", "\\lfloor",
    "\\langle", "\\lceil", "\\lbrace", "\\leftbrace", "\\lbrack", "\\leftparen", "\\lgroup", ")",
    "]", "\\\x7d", ">", "\\rfloor", "\\rangle", "\\rceil", "\\rbrace", "\\rightbrace",
    "\\rbrack", "\\rightparen", "\\rgroup"]

end HorizonPlanner.Plot
